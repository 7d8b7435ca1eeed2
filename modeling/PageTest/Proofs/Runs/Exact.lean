import PageTest.Proofs.Runs.Alone
import PageTest.Proofs.Load.Task

/-! What a run pass comes to, step by step: between two tests it moves on by itself, within a test it is
where the test's body is, and in the end it is left with its verdict. -/

namespace PageTest

/-- The story of a run pass that stands on so many frames. -/
def passSee (t depth : Nat) (s : Story) (act : Act) : Story :=
  if act.mover = some t then
    match act.activity? with
    | none => s
    | some a => s.observe (.running 0) (a.stack.take (a.stack.length - depth)) a.returned
        act.before.registry.tests act.entries
  else s

def passStory (t depth : Nat) (tests : List Test) (acts : List Act) : Story :=
  acts.foldl (passSee t depth) { Story.blank with taken := tests }

/-- Where a task stands with a run pass on some frames. -/
inductive PassStage (host : List Frame) (s : Story) (w : World) (t : Nat) (a : Activity) : Prop
  | between {queue : List Test} : a.stack = .pass none queue :: host → a.returned = none →
      w.running = some t → w.registry = ⟨[], .running⟩ → s.Passing queue →
      (∀ u ∈ queue, Step.allEvery Step.lively Step.hushed u.body = true) → PassStage host s w t a
  | within {u : Test} {queue : List Test} {inner : List Frame} :
      a.stack = inner ++ .pass (some u) queue :: host →
      (inner = [] → a.returned.isSome ∧ w.running = some t) → w.registry = ⟨[], .running⟩ →
      s.Testing u queue → (∀ u ∈ queue, Step.allEvery Step.lively Step.hushed u.body = true) →
      (∀ g ∈ inner, g.Abides Step.lively Step.hushed) → PassStage host s w t a
  | back {st : RunState} : a.stack = host → a.returned = some (.value (.state st)) →
      w.running = some t → w.registry = ⟨[], st⟩ → s.Concluded st → PassStage host s w t a

/-- A run pass on its way, with all that was written since it began. -/
structure PassRun (t : Nat) (host : List Frame) (base : List LogEntry) (tests : List Test)
    (s : Story) (w : World) : Prop where
  task : ∃ a, w.core.tasks[t]? = some a ∧ a.ended = none ∧ a.cancelled = false ∧ PassStage host s w t a
  hushed : Hushed t w.core
  opening : s.opening = []
  registered : s.registered = []
  closing : s.closing = []
  taken : s.taken = tests
  history : w.log.history = base ++ s.log

/-- A task is in the middle of more than some frames. -/
def World.Above (w : World) (t : Nat) (host : List Frame) : Prop :=
  (w.core.tasks[t]?).any (host.length < ·.stack.length) = true

instance (w : World) (t : Nat) (host : List Frame) : Decidable (w.Above t host) :=
  inferInstanceAs (Decidable (_ = _))

/-- A run pass stands on some frames. -/
def World.OnPass (w : World) (t : Nat) (host : List Frame) : Prop :=
  ∃ a inner cur queue, w.core.tasks[t]? = some a ∧ a.stack = inner ++ .pass cur queue :: host

/-- The body of a test is on top of a run pass. -/
def World.InBody (w : World) (t : Nat) (host : List Frame) : Prop :=
  ∃ a f inner u queue, w.core.tasks[t]? = some a ∧ a.stack = f :: inner ++ .pass (some u) queue :: host

/-- A run pass was left with a verdict. -/
def World.Left (w : World) (t : Nat) (host : List Frame) (st : RunState) : Prop :=
  ∃ a, w.core.tasks[t]? = some a ∧ a.stack = host ∧ a.returned = some (.value (.state st))

/-- The task has not been asked to end. -/
def World.Spared (w : World) (t : Nat) : Prop := (w.core.tasks[t]?).all (!·.cancelled) = true

instance (w : World) (t : Nat) : Decidable (w.Spared t) := inferInstanceAs (Decidable (_ = _))

theorem World.Spared.kept {w : World} {t : Nat} {a : Activity} (h : w.Spared t)
    (ha : w.core.tasks[t]? = some a) : a.cancelled = false := by
  simpa [World.Spared, ha] using h

variable {su : Setup} {w v : World} {t : Nat} {host : List Frame} {base : List LogEntry}
variable {tests : List Test} {s : Story} {a : Activity} {f : Frame} {rest : List Frame} {m : Move}

theorem passSee_inner (s : Story) (w' : World) {inner : List Frame} (ha : w.core.tasks[t]? = some a)
    (hs : a.stack = inner ++ host) :
    passSee t host.length s ⟨some t, w, w'⟩ =
      s.observe (.running 0) inner a.returned w.registry.tests (Act.mk (some t) w w').entries := by
  simp [passSee, Act.activity?, ha, hs]

theorem Activity.cancelled_moved (a : Activity) (rest : List Frame) (m : Move) :
    (a.moved rest m).cancelled = a.cancelled := by
  by_cases h : m.waits = true ∧ a.cancelled = true
  · rw [moved_cancelled h]; rfl
  · rw [moved_onto h]; rfl

theorem Next.running_none {may : Nat → Prop} {w' : World} (h : Next su may w none w') : w.running = none := by
  cases h <;> assumption

namespace PassRun

/-- A step of anybody else finds the pass within a test, and leaves it there. -/
theorem elsewhere {mover : Option Nat} {w' : World} (h : PassRun t host base tests s w)
    (hn : Next su (fun _ => True) w mover w') (hm : mover ≠ some t)
    (hspare : w'.Spared t) : PassRun t host base tests (passSee t host.length s ⟨mover, w, w'⟩) w' := by
  have hsee : passSee t host.length s ⟨mover, w, w'⟩ = s := if_neg hm
  obtain ⟨a, ha, he, hc, hstage⟩ := h.task
  have hrun : w.running = mover := by
    cases mover with
    | none => exact hn.running_none
    | some i => cases hn; assumption
  have hne : w.running ≠ some t := hrun ▸ hm
  rw [hsee]
  cases hstage with
  | between _ _ hr => exact absurd hr hne
  | back _ _ hr => exact absurd hr hne
  | within hs hempty hreg ht hq hinner =>
    have helse : Elsewhere t w w' := by
      cases mover with
      | none => exact .idle hn h.hushed
      | some i =>
        cases hn
        exact .runTask (fun hi => hm (congrArg some hi)) h.hushed hreg
    refine ⟨⟨a, helse.task a ha he hc fun _ => hspare.kept, he, hc, .within hs (fun hi => absurd (hempty hi).2 hne)
      (helse.registry.trans hreg) ht hq hinner⟩, helse.hushed, h.opening, h.registered, h.closing, h.taken, ?_⟩
    rw [helse.history, h.history]

/-- The pass moves on by itself. -/
theorem own (su : Setup) (h : PassRun t host base tests s w)
    (ha : w.core.tasks[t]? = some a) (he : a.ended = none) (hc : a.cancelled = false)
    (hs : a.stack = f :: host) (hr : w.running = some t) (hreg : w.registry = ⟨[], .running⟩)
    (hf : f.Keeps Step.lively Step.hushed)
    (hmove : PassMove w s [f] a.returned (f.act su w t a.returned).1 (f.act su w t a.returned).2) :
    PassRun t host base tests (passSee t host.length s ⟨some t, w, w.runTask su t⟩) (w.runTask su t) ∧
      ((w.runTask su t).InBody t host ∨ (∃ st, (w.runTask su t).Left t host st) ∨
        (a.returned.isSome ∧ ∃ a', (w.runTask su t).core.tasks[t]? = some a' ∧ a'.returned = none)) := by
  have law := Frame.lawful_act (secluded_lively su).toRules t a.returned hf (w := w) (by simp [hreg])
  have hhushed := h.hushed.move ha hs law.newcomers (fun hne => absurd rfl hne)
  have hcore := World.core_runTask su ha hs
  have hsee := passSee_inner s (w.runTask su t) ha (show a.stack = [f] ++ host from hs)
  generalize f.act su w t a.returned = p at hcore hmove law
  obtain ⟨v, m⟩ := p
  dsimp only at hcore hmove law
  -- what the move leaves on the stack, once the core of `v` is known
  have settled (es : List LogEntry) (g : Registry Test)
      (hv : v.core = { w.core with log := w.log.appendAll es, registry := g }) (hm : m.waits = false) :
      (w.runTask su t).core.tasks[t]? = some (a.put (m.onto host).1 (m.onto host).2) ∧
        (w.runTask su t).running = some t ∧ (w.runTask su t).registry = g ∧
        (w.runTask su t).log.history = w.log.history ++ es ∧
        (Act.mk (some t) w (w.runTask su t)).entries = es := by
    have hva : v.core.tasks[t]? = some a := by rw [hv]; exact ha
    have hlog : (w.runTask su t).log.history = w.log.history ++ es := by
      rw [show (w.runTask su t).log = v.core.log from (congrArg Core.log hcore).trans (Core.settle_log ..), hv]
      exact Log.history_appendAll _ _
    refine ⟨?_, ?_, ?_, hlog, Act.entries_eq hlog⟩
    · rw [hcore, Core.settle_self hva, Activity.moved_onto (by simp [hc])]
    · refine (congrArg Core.running hcore).trans ?_
      rw [Core.settle_running, hm, hv]
      exact hr
    · refine (congrArg Core.registry hcore).trans ?_
      rw [Core.settle_registry, hv]
  -- the story goes on with the tests that were started, and with nothing else
  have finish (es : List LogEntry) (ran : List Ran)
      (ht : Tells s (.running 0) [f] a.returned w es { s with ran })
      (hh : (w.runTask su t).log.history = w.log.history ++ es)
      (hes : (Act.mk (some t) w (w.runTask su t)).entries = es)
      (hstage : ∃ a', (w.runTask su t).core.tasks[t]? = some a' ∧ a'.ended = none ∧ a'.cancelled = false ∧
        PassStage host { s with ran } (w.runTask su t) t a') :
      PassRun t host base tests (passSee t host.length s ⟨some t, w, w.runTask su t⟩) (w.runTask su t) := by
    rw [hsee, hes, ht.story]
    exact ⟨hstage, hhushed, h.opening, h.registered, h.closing, h.taken,
      by rw [hh, h.history, ht.log, List.append_assoc]⟩
  cases hmove with
  | @start u queue who es ran hv ht hd =>
    obtain ⟨h1, -, h3, h4, h5⟩ := settled es w.registry hv rfl
    refine ⟨finish es ran ht h4 h5 ⟨_, h1, he, hc, .within (rfl : _ = [Frame.steps who [] none u.body] ++ _)
      (by simp) (h3.trans hreg) hd (law.frames (.pass (some u) queue) (by simp [Move.frames])) fun g hg => ?_⟩,
      .inl ⟨_, _, [], _, _, h1, rfl⟩⟩
    obtain rfl := List.mem_singleton.1 hg
    exact ⟨rfl, law.frames _ (by simp [Move.frames])⟩
  | @next queue es ran hret hv ht hd =>
    obtain ⟨h1, h2, h3, h4, h5⟩ := settled es w.registry hv rfl
    exact ⟨finish es ran ht h4 h5 ⟨_, h1, he, hc, .between rfl rfl h2 (h3.trans hreg) hd
      (law.frames (.pass none queue) (by simp [Move.frames]))⟩, .inr (.inr ⟨hret, _, h1, rfl⟩)⟩
  | back es ran hv ht hd =>
    obtain ⟨h1, h2, h3, h4, h5⟩ := settled es _ hv rfl
    exact ⟨finish es ran ht h4 h5 ⟨_, h1, he, hc, .back rfl rfl h2 h3 hd⟩, .inr (.inl ⟨_, _, h1, rfl, rfl⟩)⟩

/-- The body of a test moves on. -/
theorem body {u : Test} {queue : List Test} {deep : List Frame} (h : PassRun t host base tests s w)
    (ha : w.core.tasks[t]? = some a) (he : a.ended = none) (hc : a.cancelled = false)
    (hs : a.stack = f :: deep ++ .pass (some u) queue :: host) (hr : w.running = some t)
    (hreg : w.registry = ⟨[], .running⟩) (ht : s.Testing u queue)
    (hq : ∀ u ∈ queue, Step.allEvery Step.lively Step.hushed u.body = true)
    (hinner : ∀ g ∈ f :: deep, g.Abides Step.lively Step.hushed) (hspare : (w.runTask su t).Spared t) :
    PassRun t host base tests (passSee t host.length s ⟨some t, w, w.runTask su t⟩) (w.runTask su t) := by
  have hf := hinner f (by simp)
  obtain ⟨es, hin, -⟩ := Frame.indoors_act (secluded_lively su) t a.returned hf hreg
  have hhushed := h.hushed.move ha hs hin.newcomers (fun hne => absurd rfl hne)
  have hcore := World.core_runTask su ha hs
  have hsee := passSee_inner s (w.runTask su t) ha
    (show a.stack = (f :: deep ++ [.pass (some u) queue]) ++ host by simpa using hs)
  obtain ⟨a', ha', hu⟩ := (f.apart_act su w t a.returned).tasks t a ha
  have hrunning := (f.apart_act su w t a.returned).running
  generalize f.act su w t a.returned = p at hcore hin ha' hrunning
  obtain ⟨v, m⟩ := p
  dsimp only at hcore hin ha' hrunning
  have hself : (w.runTask su t).core.tasks[t]? =
      some (a'.moved (deep ++ .pass (some u) queue :: host) m) := by
    rw [hcore]
    exact Core.settle_self ha'
  obtain rfl : a' = a := hu.same hc (by rw [← hspare.kept hself, Activity.cancelled_moved])
  rw [Activity.moved_onto (by simp [hc]), Move.onto_append] at hself
  have hlog : (w.runTask su t).log.history = w.log.history ++ es := by
    rw [show (w.runTask su t).log = v.log from (congrArg Core.log hcore).trans (Core.settle_log ..), hin.history]
  obtain ⟨said, before, hran, hbefore⟩ := ht.last
  have hhear : s.hear es = { s with ran := ⟨u, said ++ es, none⟩ :: before } := by
    simp [Story.hear, hran]
  have hstory : passSee t host.length s ⟨some t, w, w.runTask su t⟩ = s.hear es := by
    rw [hsee, Act.entries_eq hlog]
    cases deep <;> cases a'.returned <;> rfl
  rw [hstory, hhear]
  refine ⟨⟨_, hself, he, hc,
    .within rfl (fun hempty => ?_) ?_ ⟨?_, said ++ es, before, rfl, hbefore⟩ hq fun g hg => ?_⟩,
    hhushed, h.opening, h.registered, h.closing, h.taken, ?_⟩
  · cases m with
    | leave o =>
      refine ⟨rfl, (congrArg Core.running hcore).trans ?_⟩
      rw [Core.settle_running]
      exact hrunning.trans hr
    | _ => simp [Move.onto] at hempty
  · exact ((congrArg Core.registry hcore).trans (Core.settle_registry ..)).trans (hin.registry.trans hreg)
  · rw [ht.taken, hran]
    simp
  · rw [Move.onto_frames] at hg
    rcases List.mem_append.1 hg with h1 | h1
    · exact hin.frames g h1
    · exact hinner g (by simp [h1])
  · rw [hlog, h.history, Story.log_cons hran h.closing]
    simp [Story.log, Ran.log, Ran.closing, h.closing]

/-- One step under any scheduler. -/
theorem step {mover : Option Nat} {w' : World} (h : PassRun t host base tests s w)
    (hn : Next su (fun _ => True) w mover w') (habove : w.Above t host) (hspare : w'.Spared t) :
    PassRun t host base tests (passSee t host.length s ⟨mover, w, w'⟩) w' := by
  by_cases hm : mover = some t
  · subst hm
    obtain ⟨a, ha, he, hc, hstage⟩ := h.task
    cases hn with
    | move hr =>
      cases hstage with
      | between hs hret _ hreg hp hq =>
        refine (h.own su ha he hc hs hr hreg hq ?_).1
        rw [hret]
        exact .run hp rfl h.closing
      | @within u queue inner hs hempty hreg ht hq hinner =>
        cases inner with
        | nil =>
          obtain ⟨o, ho⟩ := Option.isSome_iff_exists.1 (hempty rfl).1
          refine (h.own su ha he hc hs hr hreg hq ?_).1
          rw [ho]
          exact .resume o ht h.closing
        | cons f deep => exact h.body ha he hc hs hr hreg ht hq hinner hspare
      | back hs => simp [World.Above, ha, hs] at habove
  · exact h.elsewhere hn hm hspare

theorem run {w' : World} {acts : List Act} (h : PassRun t host base tests { Story.blank with taken := tests } w)
    (hr : Run su (fun _ => True) w acts w') (habove : ∀ act ∈ acts, act.before.Above t host)
    (hspare : ∀ act ∈ acts, act.after.Spared t) :
    PassRun t host base tests (passStory t host.length tests acts) w' := by
  induction hr with
  | start => exact h
  | @step acts v v' mover _ hn ih =>
    have ih := ih (fun act ha => habove act (by simp [ha])) (fun act ha => hspare act (by simp [ha]))
    have := ih.step hn (habove ⟨mover, v, v'⟩ (by simp)) (hspare ⟨mover, v, v'⟩ (by simp))
    simpa [passStory] using this

/-- Between two tests the pass does not wait: soon it is within the next test, or it is back. -/
theorem settles (su : Setup) (h : PassRun t host base tests s w) : ∃ n ≤ 2,
    (w.afterSteps su n).InBody t host ∨ ∃ st, (w.afterSteps su n).Left t host st := by
  have first (v : World) (hr : v.running = some t) (n : Nat) :
      v.afterSteps su (n + 1) = (v.runTask su t).afterSteps su n := by
    simp [World.afterSteps, World.step?, hr]
  -- from the moment that no test is going on, one move is enough
  have between {v : World} {s : Story} {a : Activity} {queue : List Test} (h : PassRun t host base tests s v)
      (ha : v.core.tasks[t]? = some a) (he : a.ended = none) (hc : a.cancelled = false)
      (hs : a.stack = .pass none queue :: host) (hret : a.returned = none) (hr : v.running = some t)
      (hreg : v.registry = ⟨[], .running⟩) (hp : s.Passing queue)
      (hq : ∀ u ∈ queue, Step.allEvery Step.lively Step.hushed u.body = true) :
      (v.runTask su t).InBody t host ∨ ∃ st, (v.runTask su t).Left t host st := by
    have hown := (h.own su ha he hc hs hr hreg hq (by rw [hret]; exact .run hp rfl h.closing)).2
    rcases hown with h1 | h1 | ⟨h1, -⟩
    · exact .inl h1
    · exact .inr h1
    · simp [hret] at h1
  obtain ⟨a, ha, he, hc, hstage⟩ := h.task
  cases hstage with
  | between hs hret hr hreg hp hq =>
    exact ⟨1, by omega, by rw [first w hr]; exact between h ha he hc hs hret hr hreg hp hq⟩
  | back hs hret => exact ⟨0, by omega, .inr ⟨_, a, ha, hs, hret⟩⟩
  | @within u queue inner hs hempty hreg ht hq hinner =>
    cases inner with
    | cons f deep => exact ⟨0, by omega, .inl ⟨a, f, deep, u, queue, ha, hs⟩⟩
    | nil =>
      obtain ⟨hret, hr⟩ := hempty rfl
      obtain ⟨o, ho⟩ := Option.isSome_iff_exists.1 hret
      obtain ⟨hnext, hwhere⟩ := h.own su ha he hc hs hr hreg hq (by rw [ho]; exact .resume o ht h.closing)
      rcases hwhere with h1 | h1 | ⟨-, a', ha', hret'⟩
      · exact ⟨1, by omega, by rw [first w hr]; exact .inl h1⟩
      · exact ⟨1, by omega, by rw [first w hr]; exact .inr h1⟩
      · obtain ⟨b, hb, he', hc', hstage'⟩ := hnext.task
        obtain rfl := Option.some.inj (ha'.symm.trans hb)
        cases hstage' with
        | between hs' _ hr' hreg' hp' hq' =>
          exact ⟨2, le_rfl, by
            rw [first w hr, first _ hr']; exact between hnext hb he' hc' hs' hret' hr' hreg' hp' hq'⟩
        | back _ hb' => simp [hret'] at hb'
        | @within u' queue' inner' hs' hempty' =>
          cases inner' with
          | nil => simp [hret'] at hempty'
          | cons f deep => exact ⟨1, by omega, by rw [first w hr]; exact .inl ⟨a', f, deep, u', queue', hb, hs'⟩⟩

end PassRun

/-- A task at its turn begins a run pass; the others keep quiet, and so do the tests but for the log. -/
structure World.Begins (w : World) (t : Nat) (host : List Frame) : Prop where
  task : ∃ who found cur s rest below, s.bare = .run ∧ host = .steps who found (some s) rest :: below ∧
    w.core.tasks[t]? = some (.fresh (.steps who found cur (s :: rest) :: below))
  turn : w.running = some t
  opened : w.registry.state ≠ .running
  tests : ∀ u ∈ w.registry.tests, Step.allEvery Step.lively Step.hushed u.body = true
  hushed : Hushed t w.core

theorem PassRun.begun (su : Setup) (h : w.Begins t host) :
    PassRun t host w.log.history w.registry.tests { Story.blank with taken := w.registry.tests }
      (w.runTask su t) := by
  obtain ⟨who, found, cur, s, rest, below, hs, rfl, ha⟩ := h.task
  have hact : Frame.act su w t (.steps who found cur (s :: rest)) none =
      ({ w with registry := ⟨[], .running⟩ },
        .call (.steps who found (some s) rest) (.pass none w.registry.tests)) := by
    have hb : w.begin su found s =
        ({ w with registry := ⟨[], .running⟩ }, .within (.pass none w.registry.tests)) := by
      rw [World.begin_bare, hs]
      simp [World.begin, Registry.beginRun, h.opened]
    simp [Frame.act, Frame.run, Frame.runSteps, hb]
  have hcore := World.core_runTask su ha rfl
  rw [show (Activity.fresh (.steps who found cur (s :: rest) :: below)).returned = none from rfl, hact] at hcore
  refine ⟨⟨_, by rw [hcore]; exact Core.settle_self ha, rfl, rfl,
    .between rfl rfl ?_ ?_ ⟨rfl, by simp [Story.blank]⟩ h.tests⟩, ?_, rfl, rfl, rfl, rfl, ?_⟩
  · exact (congrArg Core.running hcore).trans h.turn
  · exact congrArg Core.registry hcore
  · intro i b hi hb g hg
    rw [hcore, Core.settle_other hi] at hb
    exact h.hushed i b hi hb g hg
  · rw [show (w.runTask su t).log = w.log from congrArg Core.log hcore]
    simp [Story.log, Story.blank]

/-- How a run pass stands that has started some tests, the last of them perhaps still going on. -/
inductive PassState (su : Setup) (t : Nat) (host : List Frame) (tests : List Test) (ran : List Ran)
    (w : World) : Prop
  /-- Whoever registers a test or begins another pass is refused, and between two tests the pass
  does not wait. -/
  | underway (queue : List Test) : w.OnPass t host → tests = ran.map (·.test) ++ queue →
      (∀ r ∈ ran.dropLast, r.completed = true) → w.registry = ⟨[], .running⟩ → w.Refuses su →
      (∃ n ≤ 2, (w.afterSteps su n).InBody t host ∨ ∃ st, (w.afterSteps su n).Left t host st) →
      PassState su t host tests ran w
  | completed : w.Left t host .completed → tests = ran.map (·.test) →
      (∀ r ∈ ran, r.completed = true) → w.registry = ⟨[], .completed⟩ → PassState su t host tests ran w
  | aborted (before : List Ran) (r : Ran) (queue : List Test) : w.Left t host .aborted →
      tests = ran.map (·.test) ++ queue → ran = before ++ [r] → (∀ r ∈ before, r.completed = true) →
      r.raised = true → w.registry = ⟨[], .aborted⟩ → PassState su t host tests ran w

theorem PassRun.state (su : Setup) (h : PassRun t host base tests s w) :
    PassState su t host tests s.ran.reverse w := by
  obtain ⟨a, ha, -, -, hstage⟩ := h.task
  cases hstage with
  | @between queue hs _ _ hreg hp _ =>
    refine .underway queue ⟨a, [], none, queue, ha, hs⟩ (h.taken ▸ hp.taken) (fun r hr => ?_) hreg
      (World.refuses_of_running (by rw [hreg])) (h.settles su)
    exact hp.completed r (by simpa using List.mem_of_mem_dropLast hr)
  | @within u queue inner hs _ hreg ht _ _ =>
    obtain ⟨said, before, hran, hbefore⟩ := ht.last
    refine .underway queue ⟨a, inner, some u, queue, ha, hs⟩
      (h.taken ▸ ht.taken) (fun r hr => ?_) hreg (World.refuses_of_running (by rw [hreg])) (h.settles su)
    exact hbefore r (by simpa [hran] using hr)
  | @back st hs hret _ hreg hc =>
    cases hc with
    | completed htaken hall =>
      exact .completed ⟨a, ha, hs, hret⟩ (h.taken ▸ htaken) (fun r hr => hall r (by simpa using hr)) hreg
    | @aborted r before queue hran htaken hbefore hraised =>
      exact .aborted before.reverse r queue ⟨a, ha, hs, hret⟩ (h.taken ▸ htaken) (by simp [hran])
        (fun r hr => hbefore r (by simpa using hr)) hraised hreg

/-- A run pass starts the tests that are registered, one after another, up to the first that fails. What
is written meanwhile is the log of these tests, one by one. It completes if no test fails, and
leaves an empty registry with its verdict. -/
theorem pass_exact {w' : World} {acts : List Act} (hw : w.Begins t host)
    (hr : Run su (fun _ => True) (w.runTask su t) acts w')
    (habove : ∀ act ∈ acts, act.before.Above t host) (hspare : ∀ act ∈ acts, act.after.Spared t) :
    let ran := (passStory t host.length w.registry.tests acts).ran.reverse
    w'.log.history = w.log.history ++ ran.flatMap Ran.log ∧
      PassState su t host w.registry.tests ran w' := by
  have h := (PassRun.begun su hw).run hr habove hspare
  refine ⟨?_, h.state su⟩
  rw [h.history, Story.log, h.opening, h.registered, h.closing]
  simp

/-- Three tests of which the second fails. The first one and another task meddle with the registry. -/
def Demo.rehearsal : World :=
  { world [.steps .hidden [] none [.run]]
      [[.steps .hidden [] none [.attempt .run, .addTest "late" [] none false]]] with
    registry := ⟨[⟨"first", [.info "begun", .sleep 100, .attempt .run,
        .attempt (.addTest "inner" [] none false)], none, false⟩,
      ⟨"second", [.fail (.ofMessage "broken")], none, false⟩, ⟨"third", [], none, false⟩], .idle⟩ }

theorem Demo.rehearsal_begins : rehearsal.Begins 0 [.steps .hidden [] (some .run) []] where
  task := ⟨.hidden, [], none, .run, [], [], rfl, rfl, rfl⟩
  turn := rfl
  opened := by decide
  tests := by decide +kernel
  hushed i b hi hb g hg := by
    have hlt : i < 2 := lt_of_getElem? hb
    interval_cases i
    · exact absurd rfl hi
    · obtain rfl := Option.some.inj hb
      obtain rfl := List.mem_singleton.1 hg
      exact ⟨rfl, rfl⟩

theorem pass_exact_demo : ∃ ran, ran.map (·.test.name) = ["first", "second"] ∧
    ((Demo.rehearsal.runTask Demo.setup 0).afterSteps Demo.setup 18).log.history = ran.flatMap Ran.log ∧
    PassState Demo.setup 0 [.steps .hidden [] (some .run) []] Demo.rehearsal.registry.tests ran
      ((Demo.rehearsal.runTask Demo.setup 0).afterSteps Demo.setup 18) := by
  obtain ⟨hlog, hstate⟩ := pass_exact Demo.rehearsal_begins
    (World.run_afterSteps 18 (Demo.rehearsal.runTask Demo.setup 0)) (by decide +kernel) (by decide +kernel)
  exact ⟨_, by decide +kernel, hlog, hstate⟩

end PageTest
