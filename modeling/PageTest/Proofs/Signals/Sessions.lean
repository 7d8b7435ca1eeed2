import PageTest.Proofs.Signals.Happening

/-! A session goes its way under a cooperative scheduler: whatever it does next is one of the things that
can happen. -/

namespace PageTest

variable {su : Setup} {s s' : Session} {w : World}

namespace Session

/-- The session is between two steps with task 0 at rest, or in a step that is over only when task 0 has
moved last. No step is given up. -/
structure Sound (s : Session) : Prop where
  main : 0 < s.world.tasks.length
  resting : s.busy = false → s.world.running = none ∧ s.world.Vacant
  moving : s.busy = true → s.outcome?.isSome = true → s.world.running = none ∨ s.world.running = some 0
  limit : s.limit = none

/-- The task that makes the next move. The session's own steps are task 0's. -/
def mover (s : Session) : Option Nat :=
  if s.busy then if s.outcome?.isSome then none else s.world.running else some 0

/-- The signals that are fired by what happens next. -/
def signals (su : Setup) (s : Session) : List Signal :=
  match s.busy, s.ahead, s.mover with
  | true, _, some t => s.world.signals su t
  | true, _, none => []
  | false, step :: _, _ => s.world.stepSignals su [] step
  | false, [], _ => []

/-- What happens in the next so many moves. -/
def deedsOf (su : Setup) : Nat → Session → List Deed
  | 0, _ => []
  | n + 1, s =>
    match s.step? su with
    | none => []
    | some s' => ⟨⟨s.mover, s.world, s'.world⟩, s.signals su⟩ :: deedsOf su n s'

theorem outcome?_eq_core (s : Session) : s.outcome? = s.world.core.tasks[0]?.bind fun a =>
    if a.stack.isEmpty then a.returned else none := by
  rw [World.getElem?_core]
  unfold outcome?
  cases s.world.task? 0 <;> rfl

theorem vacant_of_outcome? {o : Outcome} (h : s.outcome? = some o) : s.world.Vacant := by
  intro a ha
  unfold outcome? at h
  rw [ha] at h
  dsimp only at h
  split_ifs at h with hst
  exact List.isEmpty_iff.1 hst

theorem sound_ofSteps (p : Page Action) (steps : List Step) : (ofSteps (.ofPage p) steps).Sound where
  main := Nat.one_pos
  resting _ := by
    refine ⟨rfl, fun a ha => ?_⟩
    obtain rfl : Task.start [] = a := by simpa [ofSteps, World.task?, World.ofPage] using ha
    rfl
  moving h := by simp [ofSteps] at h
  limit := rfl

theorem sound_answer {s : Session} (h : 0 < s.world.tasks.length) (o : Outcome) : (s.answer o).Sound where
  main := by simpa [answer] using h
  resting _ := by
    refine ⟨rfl, fun a ha => ?_⟩
    have h : (s.answer o).world.task? 0 = (s.world.task? 0).map fun x => { x with stack := [], returned := none } :=
      World.task?_modifyTask_self s.world (fun x => { x with stack := [], returned := none }) 0
    rw [h] at ha
    obtain ⟨x, -, rfl⟩ := Option.map_eq_some_iff.1 ha
    rfl
  moving h := by simp [answer] at h
  limit := rfl

theorem sound_startStep (hp : su.patience = none) {s : Session} (h : 0 < s.world.tasks.length) (step : Step)
    (rest : List Step) : (s.startStep su step rest).Sound := by
  have hl : 0 < (s.world.begin su [] step).1.tasks.length := by
    have := (World.apart_begin su [] s.world step).length_le
    simp only [World.length_core] at this
    omega
  unfold startStep
  dsimp only
  rcases hb : s.world.begin su [] step with ⟨v, o | f⟩
  · rw [hb] at hl
    exact sound_answer (s := { s with ahead := rest, world := v }) hl o
  · rw [hb] at hl
    refine ⟨by simpa [World.modifyTask] using hl, by simp, fun _ ho => ?_, by simp [hp]⟩
    obtain ⟨o, ho⟩ := Option.isSome_iff_exists.1 ho
    have hv := vacant_of_outcome? ho
    have hx : v.tasks[0]? = some v.tasks[0] := List.getElem?_eq_getElem hl
    exact absurd (hv _ (by simp [World.task?, World.modifyTask, hx]; rfl)) (by simp)

/-- Only a move of task 0 brings its step to an end. -/
theorem moving_step? (ho : s.outcome? = none) (hl : 0 < s.world.tasks.length) (h : s.world.step? su = some w)
    (ho' : ({ s with world := w } : Session).outcome?.isSome = true) : w.running = none ∨ w.running = some 0 := by
  have hlt : 0 < s.world.core.tasks.length := by simpa using hl
  obtain ⟨a, ha⟩ : ∃ a, s.world.core.tasks[0]? = some a := ⟨_, List.getElem?_eq_getElem hlt⟩
  rw [outcome?_eq_core] at ho ho'
  have same {b : Activity} (hb : w.core.tasks[0]? = some b) (hst : b.stack = a.stack) (hr : b.returned = a.returned) :
      False := by
    rw [ha, Option.bind_some] at ho
    rw [hb, Option.bind_some, hst, hr, ho] at ho'
    simp at ho'
  unfold World.step? at h
  split at h
  next t hr =>
    obtain rfl := Option.some.inj h
    by_cases ht : t = 0
    · subst ht
      cases hw : (s.world.runTask su 0).running with
      | none => exact .inl rfl
      | some i =>
        by_cases hi : i = 0
        · exact .inr (by rw [hi])
        · exact absurd hw (World.running_runTask hr i hi)
    · obtain ⟨b, hb, hu⟩ := World.runTask_other su (Ne.symm ht) ha
      exact (same hb hu.stack hu.returned).elim
  next hr =>
    split at h
    next t ready hq =>
      obtain rfl := Option.some.inj h
      rcases World.tasks_turn { s.world with ready } t with h1 | ⟨-, h1⟩
      · exact (same (by rw [h1]; exact ha) rfl rfl).elim
      · by_cases ht : t = 0
        · subst ht
          have hk : (World.turn { s.world with ready } 0).core.tasks[0]? = some (a.finish .cancelled) := by
            rw [h1]
            change (s.world.core.tasks.modify 0 _)[0]? = _
            simp [ha]
          simp [hk, Activity.finish] at ho'
        · refine (same (b := a) ?_ rfl rfl).elim
          rw [h1]
          change (s.world.core.tasks.modify t _)[0]? = _
          simp [ht, ha]
    next => exact (same (by rw [World.tasks_nextRound h]; exact ha) rfl rfl).elim

theorem world_startStep (su : Setup) (s : Session) (step : Step) (rest : List Step) :
    (s.startStep su step rest).world = s.world.takes su step := by
  unfold World.takes startStep
  dsimp only [ofSteps]
  rcases s.world.begin su [] step with ⟨v, o | f⟩ <;> rfl

/-- The next thing that happens in a session can happen under a cooperative scheduler. -/
theorem happens_step? (hp : su.patience = none) (hs : s.Sound) (h : s.step? su = some s') :
    Happens su s.world s.mover (s.signals su) s'.world ∧ s'.Sound := by
  have hnot : s.overdue = false := by simp [overdue, hs.limit]
  unfold step? at h
  cases hb : s.busy with
  | true =>
    rw [hb, if_pos rfl] at h
    cases ho : s.outcome? with
    | some o =>
      simp only [ho] at h
      obtain rfl := Option.some.inj h
      have hm : s.mover = none := by simp [mover, hb, ho]
      have hσ : s.signals su = [] := by simp [signals, hb, hm]
      rw [hm, hσ]
      exact ⟨.answer (hs.moving hb (by simp [ho])) (vacant_of_outcome? ho), sound_answer hs.main o⟩
    | none =>
      simp only [ho, hnot, Bool.false_eq_true, if_false] at h
      obtain ⟨w, hw, rfl⟩ := Option.map_eq_some_iff.1 h
      have hm : s.mover = s.world.running := by simp [mover, hb, ho]
      have hlen : 0 < w.tasks.length := by
        have hnext : Next su (fun _ => True) s.world s.world.running w := World.next_of_step? hw
        have := hnext.table.1
        have := hs.main
        omega
      refine ⟨?_, hlen, by simp, fun _ ho' => moving_step? ho hs.main hw ho', hs.limit⟩
      unfold World.step? at hw
      split at hw
      next t hr =>
        obtain rfl := Option.some.inj hw
        have hσ : s.signals su = s.world.signals su t := by simp [signals, hb, hm, hr]
        rw [hσ, hm, hr]
        exact .move hr
      next hr =>
        have hσ : s.signals su = [] := by simp [signals, hb, hm, hr]
        rw [hσ, hm, hr]
        split at hw
        next t ready hq =>
          obtain rfl := Option.some.inj hw
          have hm : t ∈ s.world.ready := by simp [hq]
          have hturn : Happens su s.world none [] ({ s.world with ready := s.world.ready.erase t }.turn t) := .turn hr hm
          simpa [hq] using hturn
        next => exact .round hr hw
  | false =>
    rw [hb, if_neg Bool.false_ne_true] at h
    split at h
    next => simp at h
    next step rest ha =>
      obtain rfl := Option.some.inj h
      obtain ⟨hr, hv⟩ := hs.resting hb
      have hm : s.mover = some 0 := by simp [mover, hb]
      have hσ : s.signals su = s.world.stepSignals su [] step := by simp [signals, hb, ha]
      rw [hm, hσ, world_startStep]
      exact ⟨.step step hr hv, sound_startStep hp hs.main step rest⟩

/-- A session is a run under a cooperative scheduler. -/
theorem course (hp : su.patience = none) (hs : s.Sound) (n : Nat) :
    Course su s.world (deedsOf su n s) (run su n s).world ∧ (run su n s).Sound := by
  induction n generalizing s with
  | zero => exact ⟨.start, hs⟩
  | succ n ih =>
    unfold deedsOf run
    cases h : s.step? su with
    | none => exact ⟨.start, hs⟩
    | some s' =>
      obtain ⟨hh, hs'⟩ := happens_step? hp hs h
      exact ⟨(Course.single hh).trans (ih hs').1, (ih hs').2⟩

end Session

end PageTest
