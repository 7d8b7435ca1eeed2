import PageTest.Proofs.Runs.Pass
import PageTest.Proofs.Machine.Apart

/-! A run pass that is begun outside of all loads, while nobody else writes to the log, loads, or
resets the registry. The tests are started one after another up to the first that fails, and
the log is told test by test. -/

namespace PageTest

/-! Rules -/

/-- Steps that leave the log and the state of the registry alone. -/
def Step.hushed : Step → Bool
  | .append .. | .reset | .load _ | .runPath _ | .runPaths _ => false
  | s => !s.speaks

/-- Steps of the tests in a run pass. They may write to the log. -/
def Step.lively : Step → Bool
  | .reset | .load _ | .runPath _ | .runPaths _ => false
  | _ => true

/-- A rule under which nobody drives, loads, or resets the registry. -/
structure Secluded (su : Setup) (own task : Step → Bool) : Prop extends Rules su own task where
  reset : own .reset = false
  load : ∀ p, own (.load p) = false

variable {su : Setup} {own task : Step → Bool} {w v : World}

theorem secluded_hushed (su : Setup) : Secluded su Step.hushed Step.hushed where
  path _ := rfl
  paths _ := rfl
  navigates := ⟨fun _ => rfl, fun _ => rfl⟩
  scripts _ _ h := by simp [Step.hushed] at h
  reset := rfl
  load _ := rfl

theorem secluded_lively (su : Setup) : Secluded su Step.lively Step.hushed where
  path _ := rfl
  paths _ := rfl
  navigates := ⟨fun _ => rfl, fun _ => rfl⟩
  scripts _ _ h := by simp [Step.lively] at h
  reset := rfl
  load _ := rfl

/-- A body, or what it waits in, that keeps to a rule. -/
def Frame.Abides (own task : Step → Bool) (f : Frame) : Prop := f.isPlain = true ∧ f.Keeps own task

/-- One move of a body while the registry is closed. -/
structure Indoors (own task : Step → Bool) (w v : World) (m : Move) (es : List LogEntry) : Prop where
  frames : ∀ g ∈ m.frames, g.Abides own task
  newcomers : Newcomers task w.core v.core
  registry : v.registry = w.registry
  history : v.log.history = w.log.history ++ es

/-- While the registry is closed a body leaves it as it is, and begins no run pass. -/
theorem Errand.closed {f : Frame} {ret : Option Outcome} {m : Move} (h : Errand w f ret v m)
    (hr : Secluded su own task) (hk : f.Keeps own task) (hs : w.registry.state = .running) :
    ∃ es, (∀ g ∈ m.frames, g.isPlain = true) ∧ v.registry = w.registry ∧
      v.log.history = w.log.history ++ es ∧ (es = [] ∨ f.Says) := by
  have allowed (s : Step) (rest : List Step) (hk : Step.allEvery own task (s :: rest) = true) :
      own s.bare = true :=
    Step.own_of_every (Bool.and_eq_true_iff.1 hk).1
  cases h with
  | aside es hm hg _ hl he => exact ⟨es, hm, hg, hl, he.imp_right (·.1)⟩
  | enroll _ hg => simp [Registry.register, hs] at hg
  | clear hb => simpa [hb, hr.reset] using allowed _ _ hk
  | begin _ hg => simp [Registry.beginRun, hs] at hg
  | load hb => simpa [hb, hr.load] using allowed _ _ hk
  | drive hb =>
    have := allowed _ _ hk
    rcases hb with ⟨p, hb⟩ | ⟨ps, hb⟩
    · simp [hb, hr.path] at this
    · simp [hb, hr.paths] at this

theorem Frame.indoors_act (hr : Secluded su own task) (self : Nat) {f : Frame} (ret : Option Outcome)
    (hf : f.Abides own task) (hw : w.registry = ⟨[], .running⟩) :
    ∃ es, Indoors own task w (f.act su w self ret).1 (f.act su w self ret).2 es ∧ (es = [] ∨ f.Says) := by
  obtain ⟨es, hm, hg, hl, he⟩ := (f.errand_act su w self ret hf.1).closed hr hf.2 (by rw [hw])
  have law := Frame.lawful_act hr.toRules self ret hf.2 (w := w) (by simp [hw])
  exact ⟨es, ⟨fun g hg => ⟨hm g hg, law.frames g hg⟩, law.newcomers, hg, hl⟩, he⟩

/-- Somebody who keeps quiet says nothing. -/
theorem Frame.not_says {f : Frame} (h : f.Keeps Step.hushed Step.hushed) : ¬ f.Says := by
  have silent (s : Step) (h : s.hushed = true) : s.speaks = false := by
    cases s <;> first | rfl | simp [Step.hushed, Step.speaks] at h ⊢ <;> exact h
  intro hs
  cases f with
  | steps who found cur rest =>
    cases rest with
    | nil => exact hs
    | cons s rest =>
      have hown := Step.own_of_every (Bool.and_eq_true_iff.1 h).1
      rcases hs with h1 | ⟨kind, msg, h1⟩
      · simp [silent _ hown] at h1
      · simp [h1, Step.hushed] at hown
  | poll c msg wait polls => obtain ⟨s, h1, h2⟩ := h; simp [silent s h2] at h1
  | waitLoad loaded l => obtain ⟨s, h1, h2⟩ := h; simp [silent s h2] at h1
  | _ => exact hs

/-! The others -/

/-- All tasks but one keep quiet. -/
def Hushed (t : Nat) (k : Core) : Prop :=
  ∀ (i : Nat) (b : Activity), i ≠ t → k.tasks[i]? = some b →
    ∀ g ∈ b.stack, g.Abides Step.hushed Step.hushed

namespace Hushed

variable {t i : Nat} {a : Activity} {f : Frame} {rest : List Frame} {k k' : Core}

/-- Stacks that were there before, or were given up. -/
theorem of_old (h : Hushed t k) (hk : ∀ (i : Nat) (b : Activity), k'.tasks[i]? = some b →
    b.stack = [] ∨ ∃ b₀, k.tasks[i]? = some b₀ ∧ b.stack = b₀.stack) : Hushed t k' := by
  intro i b hi hb g hg
  rcases hk i b hb with h1 | ⟨b₀, hb₀, h1⟩
  · simp [h1] at hg
  · exact h i b₀ hi hb₀ g (h1 ▸ hg)

theorem move (h : Hushed t w.core) (ha : w.core.tasks[i]? = some a) (hs : a.stack = f :: rest)
    (hnew : Newcomers Step.hushed w.core (f.act su w i a.returned).1.core)
    (hm : i ≠ t → ∀ g ∈ (f.act su w i a.returned).2.frames, g.Abides Step.hushed Step.hushed) :
    Hushed t (w.runTask su i).core := by
  have hapart := f.apart_act su w i a.returned
  have hcore := World.core_runTask su ha hs
  obtain ⟨a', ha', -⟩ := hapart.tasks i a ha
  generalize f.act su w i a.returned = p at hcore hnew hm hapart ha'
  intro j b hj hb g hg
  rw [hcore] at hb
  by_cases hji : j = i
  · subst hji
    rw [Core.settle_self ha'] at hb
    have hstack : ∀ g ∈ b.stack, g ∈ p.2.frames ++ rest := by
      rw [← Option.some.inj hb]
      by_cases hc : p.2.waits = true ∧ a'.cancelled = true
      · simp [Activity.moved_cancelled hc, Activity.finish]
      · simp [Activity.moved_onto hc, Activity.put, Move.onto_frames]
    rcases List.mem_append.1 (hstack g hg) with h1 | h1
    · exact hm hj g h1
    · exact h j a hj ha g (by simp [hs, h1])
  · rw [Core.settle_other hji] at hb
    rcases Nat.lt_or_ge j w.core.tasks.length with hlt | hge
    · obtain ⟨b', hb', hu⟩ := hapart.tasks j _ (List.getElem?_eq_getElem hlt)
      obtain rfl := Option.some.inj (hb.symm.trans hb')
      exact h j _ hj (List.getElem?_eq_getElem hlt) g (hu.stack ▸ hg)
    · exact ⟨(hnew j b hge hb).plain g hg, (hnew j b hge hb).keeps g hg⟩

end Hushed

/-- What a step of anybody else leaves as it is, as long as the task is not asked to end. -/
structure Elsewhere (t : Nat) (w w' : World) : Prop where
  task : ∀ a, w.core.tasks[t]? = some a → a.ended = none → a.cancelled = false →
    (∀ a', w'.core.tasks[t]? = some a' → a'.cancelled = false) → w'.core.tasks[t]? = some a
  registry : w'.registry = w.registry
  history : w'.log.history = w.log.history
  hushed : Hushed t w'.core

theorem Untouched.same {a a' : Activity} (h : Untouched True a a') (hc : a.cancelled = false)
    (hc' : a'.cancelled = false) : a' = a := by
  obtain ⟨st, ret, en, ca⟩ := a
  obtain ⟨st', ret', en', ca'⟩ := a'
  obtain ⟨rfl, rfl, rfl, -, -⟩ := h
  simp only at hc hc'
  rw [hc, hc']

theorem Elsewhere.runTask {t i : Nat} (hi : i ≠ t) (h : Hushed t w.core)
    (hw : w.registry = ⟨[], .running⟩) : Elsewhere t w (w.runTask su i) := by
  have htask (a : Activity) (ha : w.core.tasks[t]? = some a) (hc : a.cancelled = false)
      (hc' : ∀ a', (w.runTask su i).core.tasks[t]? = some a' → a'.cancelled = false) :
      (w.runTask su i).core.tasks[t]? = some a := by
    obtain ⟨a', ha', hu⟩ := World.runTask_other su hi.symm ha
    rw [ha', hu.same hc (hc' a' ha')]
  cases hb : w.core.tasks[i]? with
  | none =>
    have hcore := World.core_runTask_none su hb
    refine ⟨fun a ha _ hc hc' => htask a ha hc hc', congrArg Core.registry hcore,
      congrArg (·.log.history) hcore, h.of_old fun j b hj => .inr ⟨b, ?_, rfl⟩⟩
    rwa [hcore] at hj
  | some b =>
    cases hs : b.stack with
    | nil =>
      have hcore := World.core_runTask_nil su hb hs
      refine ⟨fun a ha _ hc hc' => htask a ha hc hc', congrArg Core.registry hcore,
        congrArg (·.log.history) hcore, h.of_old fun j b' hj => ?_⟩
      rw [hcore] at hj
      dsimp only at hj
      split_ifs at hj
      · exact .inr ⟨b', hj, rfl⟩
      · by_cases hij : i = j
        · subst hij
          rw [List.getElem?_modify_eq, hb] at hj
          obtain rfl := Option.some.inj hj
          exact .inl rfl
        · exact .inr ⟨b', by simpa [hij] using hj, rfl⟩
    | cons f rest =>
      have hab := h i b hi hb f (by simp [hs])
      obtain ⟨es, hin, he⟩ := Frame.indoors_act (secluded_hushed su) i b.returned hab hw
      obtain rfl := he.resolve_right (Frame.not_says hab.2)
      have hcore := World.core_runTask su hb hs
      refine ⟨fun a ha _ hc hc' => htask a ha hc hc', ?_, ?_, h.move hb hs hin.newcomers fun _ => hin.frames⟩
      · exact ((congrArg Core.registry hcore).trans (Core.settle_registry ..)).trans hin.registry
      · have hlog : (w.runTask su i).log = (f.act su w i b.returned).1.log :=
          (congrArg Core.log hcore).trans (Core.settle_log ..)
        rw [hlog, hin.history, List.append_nil]

/-- Whoever has a turn next, or is given up or asked to end, all is as it was for one who is not. -/
theorem Elsewhere.idle {t : Nat} {w' : World} (hn : Next su (fun _ => True) w none w')
    (h : Hushed t w.core) : Elsewhere t w w' := by
  cases hn with
  | rest _ hl _ =>
    refine ⟨fun a ha _ _ _ => by rw [hl.core]; exact ha, congrArg Core.registry hl.core,
      congrArg (·.log.history) hl.core, h.of_old fun j b hj => .inr ⟨b, ?_, rfl⟩⟩
    rwa [hl.core] at hj
  | @drop v i _ hl hvr hd =>
    have hcore := World.core_cancelNow v i
    rw [hl.core] at hcore
    obtain ⟨b, hb, -, hbc⟩ := hd
    refine ⟨fun a ha _ hc _ => ?_, congrArg Core.registry hcore, congrArg (·.log.history) hcore,
      h.of_old fun j b' hj => ?_⟩
    · have hne : i ≠ t := by
        rintro rfl
        obtain rfl := Option.some.inj (ha.symm.trans hb)
        simp [hc] at hbc
      rw [hcore]
      simp [Core.cancelNow, hne, ha]
    · rw [hcore] at hj
      by_cases hij : i = j
      · subst hij
        simp only [Core.cancelNow, List.getElem?_modify_eq, hb] at hj
        obtain rfl := Option.some.inj hj
        exact .inl rfl
      · exact .inr ⟨b', by simpa [Core.cancelNow, hij] using hj, rfl⟩
  | @abort i _ _ =>
    have hcore := World.core_cancel w i
    refine ⟨fun a ha he hc hc' => ?_, congrArg Core.registry hcore, congrArg (·.log.history) hcore,
      h.of_old fun j b' hj => ?_⟩
    · obtain ⟨a', ha', hu⟩ := (w.apart_cancel i).tasks t a ha
      rw [ha', hu.same hc (hc' a' ha')]
    · obtain hlt | hge := Nat.lt_or_ge j w.core.tasks.length
      · obtain ⟨b, hb, hu⟩ := (w.apart_cancel i).tasks j _ (List.getElem?_eq_getElem hlt)
        obtain rfl := Option.some.inj (hj.symm.trans hb)
        exact .inr ⟨_, List.getElem?_eq_getElem hlt, hu.stack⟩
      · rw [hcore, List.getElem?_eq_none (by simpa using hge)] at hj
        simp at hj

end PageTest
