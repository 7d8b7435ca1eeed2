import PageTest.Proofs.Runs.Census
import PageTest.Proofs.Machine.Apart
import PageTest.Proofs.Machine.Aside

/-! A rule that all scripts keep to is kept to by everyone: what is on the stacks comes from the scripts, and so do
the tests that a run pass takes. Tests that were registered before are gone by then, since a load begins by
forgetting them. -/

namespace PageTest

/-- A load that has not begun in earnest. -/
def Frame.isEarly : Frame → Bool
  | .load _ .arriving | .load _ (.queueing _) | .load _ (.entered _) => true
  | _ => false

variable {su : Setup} {rule : Step → Bool} {w v : World} {t self : Nat}

/-! The registry -/

/-- What a body registers is of its own making. -/
theorem Errand.keeps {f : Frame} {ret : Option Outcome} {m : Move} (h : Errand w f ret v m)
    (hr : Rules su rule rule) (hinfo : ∀ msg, rule (.info msg) = true) (hf : f.Keeps rule rule)
    (ht : w.registry.Keeps rule rule) : v.registry.Keeps rule rule := by
  cases h with
  | aside es _ hg => rwa [hg]
  | enroll hs hg => exact ht.register hinfo (Bool.and_eq_true_iff.1 hf).1 hs hg
  | clear _ hg => exact .of_nil (by rw [hg]; rfl)
  | begin _ hg => exact .of_nil (Registry.tests_beginRun hg)
  | load _ hg => rwa [hg]
  | drive hb =>
    have := Step.own_of_every (Bool.and_eq_true_iff.1 hf).1
    rcases hb with ⟨p, hb⟩ | ⟨ps, hb⟩ <;> simp [hb, hr.path, hr.paths] at this

namespace Frame

/-- An outcome that a frame is handed leads it to register nothing. -/
theorem keeps_resume (w : World) (f : Frame) (o : Outcome) (ht : w.registry.Keeps rule rule) :
    (f.resume w o).1.registry.Keeps rule rule := by
  have same {u : World} (h : u.registry = w.registry) : u.registry.Keeps rule rule := by rwa [h]
  have left (u : World) (k : Nat) (o : Outcome) (h : u.registry = w.registry) :
      (leaveLoad u k o).1.registry.Keeps rule rule :=
    same ((congrArg Core.registry (World.core_leaveLock u k)).trans h)
  unfold resume
  split
  · exact same (congrArg Core.registry (world_stepOver w _ _ _ _ o).1)
  · unfold resumePass
    split
    · exact same rfl
    · exact .of_nil rfl
    · exact .of_nil rfl
  · unfold resumeLoad
    split
    · exact left (w.append .fail _) _ _ rfl
    · exact left (w.append .fail _) _ _ rfl
    · exact ht
    · split
      · exact left w _ _ rfl
      · exact ht
  all_goals exact ht

theorem keeps_act (hr : Rules su rule rule) (hinfo : ∀ msg, rule (.info msg) = true) (self : Nat) {f : Frame}
    (ret : Option Outcome) (hf : f.Keeps rule rule) (ht : w.registry.Keeps rule rule) :
    (f.act su w self ret).1.registry.Keeps rule rule := by
  cases ret with
  | some o => exact keeps_resume w f o ht
  | none =>
    cases f with
    | drive d phase => exact hf.elim
    | driveAll start rest results => exact hf.elim
    | load path phase => exact (part_runLoad self path phase).1.keeps hinfo hf ht
    | pass cur queue =>
      have hpart : Part su w (.pass cur queue) _ _ := (part_runPass cur queue).1
      exact hpart.keeps hinfo hf ht
    | _ => exact (errand_run su w self rfl).keeps hr hinfo hf ht

/-- A load that has not begun in earnest starts no task, and looks at no test. -/
theorem early_act (su : Setup) (w : World) (self : Nat) {f : Frame} (ret : Option Outcome) (hf : f.isEarly = true)
    (hk : f.Keeps rule rule) :
    (f.act su w self ret).1.core.tasks = w.core.tasks ∧ (∀ g ∈ (f.act su w self ret).2.frames, g.Keeps rule rule) ∧
      ((f.act su w self ret).1.registry.tests = [] ∨ ∀ g ∈ (f.act su w self ret).2.frames, g.isEarly = true) := by
  have left (v : World) (k : Nat) (o : Outcome) (hv : v.core.tasks = w.core.tasks) :
      (leaveLoad v k o).1.core.tasks = w.core.tasks ∧ (∀ g ∈ (leaveLoad v k o).2.frames, g.Keeps rule rule) ∧
        ((leaveLoad v k o).1.registry.tests = [] ∨ ∀ g ∈ (leaveLoad v k o).2.frames, g.isEarly = true) :=
    ⟨(congrArg Core.tasks (World.core_leaveLock v k)).trans hv, by simp [leaveLoad, Move.frames],
      .inr (by simp [leaveLoad, Move.frames])⟩
  have early {path : String} {phase : LoadPhase} {v : World} (hk : rule (.load path) = true)
      (hp : (load path phase).isEarly = true) (hv : v.core.tasks = w.core.tasks) : v.core.tasks = w.core.tasks ∧
        (∀ g ∈ (Move.goOn (.load path phase)).frames, g.Keeps rule rule) ∧
        (v.registry.tests = [] ∨ ∀ g ∈ (Move.goOn (.load path phase)).frames, g.isEarly = true) :=
    ⟨hv, by simpa [Move.frames, Keeps] using hk, .inr (by simpa [Move.frames] using hp)⟩
  cases f with
  | load path phase =>
    cases ret with
    | some o =>
      simp only [act, resume]
      unfold resumeLoad
      split
      · simp [isEarly] at hf
      · simp [isEarly] at hf
      · exact early hk hf rfl
      · split
        · exact left w _ _ rfl
        · exact ⟨rfl, by simp [Move.frames], .inr (by simp [Move.frames])⟩
    | none =>
      cases phase with
      | arriving =>
        simp only [act, run, runLoad]
        split_ifs
        · exact early hk hf rfl
        · exact early hk rfl rfl
      | queueing k =>
        simp only [act, run, runLoad]
        split_ifs
        · exact early hk rfl rfl
        · exact early hk hf rfl
      | entered k =>
        simp only [act, run, runLoad]
        split_ifs
        · exact ⟨rfl, by simpa [Move.frames, Keeps] using hk, .inl rfl⟩
        · exact ⟨rfl, by simpa [Move.frames, Keeps] using hk, .inl rfl⟩
        · exact left (w.append .fail _) k _ rfl
      | _ => simp [isEarly] at hf
  | _ => simp [isEarly] at hf

end Frame

/-! Worlds -/

/-- All keep to a rule. Where there are tests that might not, there are only loads that have not begun. -/
structure World.Observes (w : World) (rule : Step → Bool) : Prop where
  frames : ∀ (i : Nat) (a : Activity), w.core.tasks[i]? = some a → ∀ g ∈ a.stack, g.Keeps rule rule
  tests : w.registry.Keeps rule rule ∨
    ∀ (i : Nat) (a : Activity), w.core.tasks[i]? = some a → ∀ g ∈ a.stack, g.isEarly = true

namespace World.Observes

/-- Nothing comes to be on a stack. -/
theorem fewer {w' : World} (h : w.Observes rule) (hr : w'.registry = w.registry)
    (ht : ∀ (i : Nat) (b : Activity), w'.core.tasks[i]? = some b →
      b.stack = [] ∨ ∃ a, w.core.tasks[i]? = some a ∧ b.stack = a.stack) :
    w'.Observes rule := by
  refine ⟨fun i b hb g hg => ?_, h.tests.imp (fun h1 => by rwa [hr]) fun h1 i b hb g hg => ?_⟩
  all_goals
    rcases ht i b hb with h2 | ⟨a, ha, h2⟩
    · simp [h2] at hg
  · exact h.frames i a ha g (h2 ▸ hg)
  · exact h1 i a ha g (h2 ▸ hg)

/-- Some stack is given up. -/
theorem put_back {ts : List Activity} {f : Activity → Activity} {i : Nat} {b : Activity}
    (hf : ∀ a, (f a).stack = []) (hb : (ts.modify t f)[i]? = some b) :
    b.stack = [] ∨ ∃ a, ts[i]? = some a ∧ b.stack = a.stack := by
  rw [List.getElem?_modify] at hb
  obtain ⟨a, ha, rfl⟩ := Option.map_eq_some_iff.1 hb
  split_ifs
  · exact .inl (hf a)
  · exact .inr ⟨a, ha, rfl⟩

theorem of_core {w' : World} (h : w.Observes rule) (hr : w'.registry = w.registry)
    (ht : w'.core.tasks = w.core.tasks) : w'.Observes rule :=
  h.fewer hr fun _ b hb => .inr ⟨b, ht ▸ hb, rfl⟩

/-- What is on a stack after a move was there before, or the move has put it there. -/
theorem mem_stack {a b : Activity} {f g : Frame} {rest : List Frame} {i : Nat} (ha : w.core.tasks[t]? = some a)
    (hs : a.stack = f :: rest) (hb : (w.runTask su t).core.tasks[i]? = some b) (hg : g ∈ b.stack) :
    g ∈ (f.act su w t a.returned).2.frames ∨ (∃ (j : Nat) (a' : Activity), w.core.tasks[j]? = some a' ∧ g ∈ a'.stack) ∨
      (w.core.tasks.length ≤ i ∧ (f.act su w t a.returned).1.core.tasks[i]? = some b) := by
  have hap := f.apart_act su w t a.returned
  have hcore := World.core_runTask su ha hs
  rw [hcore] at hb
  by_cases hi : i = t
  · subst hi
    obtain ⟨a', ha', -⟩ := hap.tasks i a ha
    rw [Core.settle_self ha', Option.some.injEq] at hb
    subst hb
    generalize (f.act su w i a.returned).2 = m at hg ⊢
    by_cases hw : m.waits = true ∧ a'.cancelled = true
    · simp [Activity.moved_cancelled hw, Activity.finish] at hg
    · rw [Activity.moved_onto hw] at hg
      rcases List.mem_append.1 (m.onto_frames rest ▸ hg) with h1 | h1
      · exact .inl h1
      · exact .inr (.inl ⟨i, a, ha, by simp [hs, h1]⟩)
  · rw [Core.settle_other hi] at hb
    rcases Nat.lt_or_ge i w.core.tasks.length with hlt | hge
    · obtain ⟨b', hb', hu⟩ := hap.tasks i _ (List.getElem?_eq_getElem hlt)
      obtain rfl := Option.some.inj (hb.symm.trans hb')
      exact .inr (.inl ⟨i, _, List.getElem?_eq_getElem hlt, hu.stack ▸ hg⟩)
    · exact .inr (.inr ⟨hge, hb⟩)

/-- One move. -/
theorem runTask (h : w.Observes rule) (hr : Rules su rule rule) (hinfo : ∀ msg, rule (.info msg) = true) (t : Nat) :
    (w.runTask su t).Observes rule := by
  cases ha : w.core.tasks[t]? with
  | none =>
    have hcore := World.core_runTask_none su ha
    exact h.of_core (congrArg Core.registry hcore) (by rw [hcore])
  | some a =>
    cases hs : a.stack with
    | nil =>
      have hcore := World.core_runTask_nil su ha hs
      refine h.fewer (congrArg Core.registry hcore) fun i b hb => ?_
      rw [hcore] at hb
      dsimp only at hb
      split_ifs at hb
      · exact .inr ⟨b, hb, rfl⟩
      · exact put_back (fun _ => rfl) hb
    | cons f rest =>
      have hreg : (w.runTask su t).registry = (f.act su w t a.returned).1.registry :=
        (congrArg Core.registry (World.core_runTask su ha hs)).trans (Core.settle_registry ..)
      have hf : f.Keeps rule rule := h.frames t a ha f (by simp [hs])
      rcases h.tests with ht | ht
      · have law := Frame.lawful_act hr t a.returned hf ht
        refine ⟨fun i b hb g hg => ?_, .inl (by rw [hreg]; exact Frame.keeps_act hr hinfo t a.returned hf ht)⟩
        rcases mem_stack ha hs hb hg with h1 | ⟨j, a', ha', h1⟩ | ⟨h1, h2⟩
        · exact law.frames g h1
        · exact h.frames j a' ha' g h1
        · exact (law.newcomers i b h1 h2).keeps g hg
      · obtain ⟨htasks, hun, hleft⟩ := Frame.early_act su w t a.returned (ht t a ha f (by simp [hs])) hf
        have same {i : Nat} {b : Activity} (hi : w.core.tasks.length ≤ i)
            (hb : (f.act su w t a.returned).1.core.tasks[i]? = some b) : False := by
          rw [htasks, List.getElem?_eq_none hi] at hb
          simp at hb
        refine ⟨fun i b hb g hg => ?_, hleft.imp (fun h1 => hreg ▸ .of_nil h1) fun h1 i b hb g hg => ?_⟩
        all_goals rcases mem_stack ha hs hb hg with h2 | ⟨j, a', ha', h2⟩ | ⟨h2, h3⟩
        · exact hun g h2
        · exact h.frames j a' ha' g h2
        · exact (same h2 h3).elim
        · exact h1 g h2
        · exact ht j a' ha' g h2
        · exact (same h2 h3).elim

/-- One step of the machine. -/
theorem step {w' : World} (h : w.Observes rule) (hr : Rules su rule rule) (hinfo : ∀ msg, rule (.info msg) = true)
    (hs : w.step? su = some w') : w'.Observes rule := by
  have hn : Next su (fun _ => False) w w.running w' := World.next_of_step? hs
  generalize w.running = m at hn
  cases hn with
  | move _ => exact h.runTask hr hinfo _
  | rest _ hl => exact h.of_core (congrArg Core.registry hl.core) (by rw [hl.core])
  | @drop v t _ hl hv =>
    have hcore := World.core_drop (t := t) hl hv
    refine h.fewer (congrArg Core.registry hcore) fun i b hb => ?_
    rw [hcore] at hb
    exact put_back (fun _ => rfl) hb
  | abort _ hf => exact hf.elim

end World.Observes

end PageTest
