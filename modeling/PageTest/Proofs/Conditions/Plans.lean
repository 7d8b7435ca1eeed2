import PageTest.Proofs.Polling.Handover
import PageTest.Proofs.Signals.Waiting

/-! What a task plans for itself: a timer, or to stand back until nobody is ready. Nobody else can undo it. As
long as the clock only moves on when nobody is ready, a timer is kept until the very moment it is due, and
whoever stands back has a turn before the clock moves. -/

namespace PageTest

/-- The clock, and what tasks have planned. -/
structure Plan where
  now : Nat
  timers : List (Nat × Nat)
  yielding : List Nat

namespace World

def plan (w : World) : Plan := ⟨w.now, w.timers, w.yielding⟩

variable {su : Setup} {w v u : World} {i j t due : Nat}

/-! What plans nothing -/

@[simp] theorem plan_wake (w : World) (t : Nat) : (w.wake t).plan = w.plan := by
  unfold wake
  split_ifs <;> rfl

@[simp] theorem plan_wake? (w : World) (t : Option Nat) : (w.wake? t).plan = w.plan := by
  cases t with
  | none => rfl
  | some t => exact plan_wake w t

@[simp] theorem plan_wakeAll (w : World) (ts : List Nat) : (w.wakeAll ts).plan = w.plan := by
  induction ts generalizing w with
  | nil => rfl
  | cons t ts ih => exact (ih (w.wake t)).trans (plan_wake w t)

@[simp] theorem plan_modifyTask (w : World) (t : Nat) (f : Task → Task) : (w.modifyTask t f).plan = w.plan := rfl

@[simp] theorem plan_waitFor (w : World) (t other : Nat) : (w.waitFor t other).plan = w.plan := rfl

@[simp] theorem plan_cancel (w : World) (t : Nat) : (w.cancel t).plan = w.plan := by
  unfold cancel
  split
  · split_ifs
    · rfl
    · rw [plan_wake, plan_modifyTask]
  · rfl

@[simp] theorem plan_endTask (w : World) (t : Nat) (how : TaskReport) : (w.endTask t how).plan = w.plan := by
  unfold endTask
  rw [plan_wake?, plan_modifyTask]

@[simp] theorem plan_leaveLock (w : World) (ticket : Nat) : (w.leaveLock ticket).plan = w.plan := by
  unfold leaveLock
  rw [plan_wake?]
  rfl

theorem plan_dropFrame (w : World) (f : Frame) : (w.dropFrame f).plan = w.plan := by
  unfold dropFrame
  split
  · split
    · exact plan_leaveLock w _
    · rfl
  · rfl
  · rfl

theorem plan_dropFrames (stack : List Frame) (w : World) : (stack.foldl dropFrame w).plan = w.plan := by
  induction stack generalizing w with
  | nil => rfl
  | cons f rest ih => exact (ih (w.dropFrame f)).trans (plan_dropFrame w f)

/-- A task that is given up keeps no timer. -/
theorem plan_dropStack (w : World) (t : Nat) : (w.dropStack t).plan = (w.clearTimer t).plan := by
  unfold dropStack
  rw [plan_modifyTask, plan_dropFrames]

theorem plan_cancelNow (w : World) (t : Nat) : (w.cancelNow t).plan = (w.clearTimer t).plan := by
  unfold cancelNow
  rw [plan_endTask, plan_dropStack]

theorem plan_tell (w : World) (n : Notice) : (w.tell n).plan = w.plan := by
  cases n with
  | fired l => exact plan_wake? w _
  | navigated => rfl

theorem plan_withScene (w : World) (s : Scene) : (w.withScene s).plan = w.plan :=
  List.foldlRecOn (b := { w with scene := { s with notices := [] } }) s.notices tell
    (motive := fun v => v.plan = w.plan) rfl fun v h n _ => (plan_tell v n).trans h

/-! What one task plans -/

/-- The clock stands still, and all that others than the `i`-th task have planned still stands. -/
structure Honors (i : Nat) (w v : World) : Prop where
  now : v.now = w.now
  timers : ∀ e ∈ w.timers, e.2 ≠ i → e ∈ v.timers
  yielding : ∀ j ∈ w.yielding, j ∈ v.yielding

namespace Honors

theorem same (h : v.plan = w.plan) : Honors i w v := by
  simp only [plan, Plan.mk.injEq] at h
  obtain ⟨now, timers, yielding⟩ := h
  exact ⟨now, fun e he _ => timers ▸ he, fun j hj => yielding ▸ hj⟩

theorem trans (h : Honors i w v) (h' : Honors i v u) : Honors i w u where
  now := h'.now.trans h.now
  timers e he hi := h'.timers e (h.timers e he hi) hi
  yielding j hj := h'.yielding j (h.yielding j hj)

theorem standBack (w : World) (i : Nat) : Honors i w (w.standBack i) :=
  ⟨rfl, fun _ he _ => he, fun _ hj => List.mem_cons_of_mem i hj⟩

theorem clearTimer (w : World) (i : Nat) : Honors i w (w.clearTimer i) :=
  ⟨rfl, fun _ he hi => List.mem_filter.2 ⟨he, by simpa using hi⟩, fun _ => id⟩

theorem setTimer (w : World) (i due : Nat) : Honors i w (w.setTimer i due) :=
  ⟨rfl, fun e he hi => List.mem_append_left _ ((clearTimer w i).timers e he hi), fun _ => id⟩

theorem cancelNow (w : World) (i : Nat) : Honors i w (w.cancelNow i) :=
  (clearTimer w i).trans (same (plan_cancelNow w i))

theorem apply (w : World) (i : Nat) (rest : List Frame) (m : Move) : Honors i w (w.apply i rest m) := by
  cases m with
  | halt f =>
    have stop (g : Task → Task) : Honors i w { w.modifyTask i g with running := none } := same rfl
    simp only [World.apply]
    split_ifs
    · exact (stop _).trans (cancelNow _ i)
    · exact stop _
  | _ => exact same rfl

end Honors

end World

/-! Turns -/

section

open World (Honors)

variable {self : Nat} {known : Nat → Prop} {w v : World} {σ : List Signal}

theorem Stroke.honors (h : Stroke self known w σ v) : w.Honors self v := by
  cases h with
  | still h =>
    simp only [World.rota, Rota.mk.injEq] at h
    obtain ⟨h1, -, -, -, -, h6, h7, -, -, -⟩ := h
    exact .same (by simp only [World.plan, h1, h6, h7])
  | leaveLock ticket => exact .same (World.plan_leaveLock w ticket)
  | page _ => exact .same (World.plan_withScene w _)
  | cancel _ => exact .same (World.plan_cancel w _)
  | standBack => exact .standBack w self
  | clearTimer => exact .clearTimer w self
  | setTimer _ => exact .setTimer w self _
  | _ => exact .same rfl

theorem Strokes.honors (h : Strokes self known w σ v) : w.Honors self v := by
  induction h with
  | one h => exact h.honors
  | more _ h ih => exact ih.trans h.honors

theorem Frame.honors_act (su : Setup) (w : World) (self : Nat) (f : Frame) (ret : Option Outcome) :
    w.Honors self (f.act su w self ret).1 := (f.strikes_act su w self ret).strokes.honors

end

namespace World

variable {su : Setup} {w v : World} {i t due : Nat}

/-- A move of one task honors what the others have planned. -/
theorem Honors.runTask (su : Setup) (w : World) (i : Nat) : Honors i w (w.runTask su i) := by
  cases hx : w.task? i with
  | none =>
    unfold World.runTask
    simp only [hx]
    exact same rfl
  | some x =>
    cases hst : x.stack with
    | nil =>
      unfold World.runTask
      simp only [hx, hst]
      split_ifs
      · exact same rfl
      · exact same (plan_endTask _ i _)
    | cons f rest =>
      rw [runTask_frame su hx hst]
      exact (Frame.honors_act su w i f x.returned).trans (apply _ i rest _)

theorem Honors.turn (w : World) (j : Nat) : Honors j w (w.turn j) := by
  unfold World.turn
  split
  · exact same rfl
  · split_ifs
    · exact same rfl
    · exact cancelNow w j
    · exact same rfl

/-- Only a task that has been asked to end gives its plans up when it gets its turn. -/
theorem plan_turn {x : Task} (hx : w.task? t = some x) (hc : x.cancelled = false) : (w.turn t).plan = w.plan := by
  unfold turn
  simp only [hx, hc, Bool.false_eq_true, if_false]
  split_ifs <;> rfl

theorem Honors.takes (su : Setup) (w : World) (s : Step) : Honors 0 w (w.takes su s) := by
  have begun : Honors 0 w (w.begin su [] s).1 :=
    (strokes_begin su 0 (fun _ => True) [] w s fun _ _ => trivial).1.honors
  unfold World.takes Session.startStep
  dsimp only [Session.ofSteps]
  rcases hb : w.begin su [] s with ⟨v, o | f⟩
  · rw [hb] at begun
    exact begun.trans (same rfl)
  · rw [hb] at begun
    exact begun.trans (same rfl)

/-! Rounds -/

theorem awake_wakeAll {ts : List Nat} (w : World) (h : t ∈ ts) : (w.wakeAll ts).Awake t := by
  induction ts generalizing w with
  | nil => simp at h
  | cons u ts ih =>
    rcases List.mem_cons.1 h with rfl | h
    · exact (Hears.wakeAll ts (w.wake t)).awake t (Hears.awake_wake w t)
    · exact ih (w.wake u) h

theorem awake_beginRound (hr : w.running = none) (h : w.Awake t) : w.beginRound.Awake t := by
  unfold beginRound
  split_ifs with hm
  · rcases h with h | h | h
    · simp [hr] at h
    · exact .inr (.inl h)
    · exact .inl (by simp [giveTurn, h.1])
  · exact h

theorem plan_beginRound (w : World) : w.beginRound.plan = w.plan := by
  unfold beginRound
  split_ifs <;> rfl

theorem advanceTo_awake {e : Nat × Nat} (he : e ∈ w.timers) (hd : e.1 ≤ due) : (w.advanceTo due).Awake e.2 := by
  have woken : e.2 ∈ (w.timers.filter (·.1 ≤ due)).map (·.2) :=
    List.mem_map.2 ⟨e, List.mem_filter.2 ⟨he, by simpa using hd⟩, rfl⟩
  have h := awake_wakeAll { w with now := max w.now due, timers := w.timers.filter (due < ·.1) } woken
  unfold advanceTo
  dsimp only
  split
  · split_ifs
    · exact h.imp_right fun h => h.imp_right fun h => ⟨h.1, rfl⟩
    · exact h
  · exact h

theorem plan_advanceTo (w : World) (due : Nat) :
    (w.advanceTo due).plan = ⟨max w.now due, w.timers.filter (due < ·.1), w.yielding⟩ := by
  have h := plan_wakeAll { w with now := max w.now due, timers := w.timers.filter (due < ·.1) }
    ((w.timers.filter (·.1 ≤ due)).map (·.2))
  unfold advanceTo
  dsimp only
  split
  · split_ifs
    · exact h
    · exact h
  · exact h

/-- A round either wakes those who stand back, or, when nobody does, moves the clock on to the first timer and
wakes those whose timers are due. -/
theorem nextRound_cases (hr : w.running = none) (h : w.nextRound? = some v) :
    (v.plan = { w.plan with yielding := [] } ∧ ∀ t ∈ w.yielding, v.Awake t) ∨
      (w.mainReady = false ∧ w.yielding = [] ∧ ∃ due,
        v.plan = ⟨max w.now due, w.timers.filter (due < ·.1), w.yielding⟩ ∧
        (∀ e ∈ w.timers, due ≤ e.1) ∧ ∀ e ∈ w.timers, e.1 ≤ due → v.Awake e.2) := by
  obtain ⟨u, hu, rfl⟩ := Option.map_eq_some_iff.1 h
  split_ifs at hu with hq
  · obtain rfl := Option.some.inj hu
    have hrunning : w.wakeYielding.running = none := (congrArg Core.running (core_wakeYielding w)).trans hr
    refine .inl ⟨(plan_beginRound _).trans (plan_wakeAll _ _), fun t ht => ?_⟩
    exact awake_beginRound hrunning (awake_wakeAll _ ht)
  · obtain ⟨due, hdue, rfl⟩ := Option.map_eq_some_iff.1 hu
    have hnobody : w.mainReady = false ∧ w.yielding = [] := by simpa using hq
    have hrunning : (w.advanceTo due).running = none := (running_advanceTo w due).trans hr
    refine .inr ⟨hnobody.1, hnobody.2, due, (plan_beginRound _).trans (plan_advanceTo w due), ?_, fun e he hd => ?_⟩
    · intro e he
      exact (List.min?_eq_some_iff.1 hdue).2 e.1 (List.mem_append_left _ (List.mem_map_of_mem he))
    · exact awake_beginRound hrunning (advanceTo_awake he hd)

/-! What a task can rely on -/

/-- The task has a turn before the clock moves on. -/
def Queued (w : World) (t : Nat) : Prop := t ∈ w.yielding ∨ w.Awake t

/-- The task has a turn when the clock shows a time, which is not over yet. -/
def Booked (w : World) (t due : Nat) : Prop := w.now ≤ due ∧ ((due, t) ∈ w.timers ∨ due = w.now ∧ w.Awake t)

/-- Somebody is yet to move. -/
theorem Queued.step?_ne_none (hq : w.Queued t) : w.step? su ≠ none := by
  unfold step?
  split
  · simp
  next hr =>
    split
    · simp
    next hready =>
      have hwoken : (w.mainReady || !w.yielding.isEmpty) = true := by
        rcases hq with hq | hq | hq | hq
        · simp [List.ne_nil_of_mem hq]
        · simp [hr] at hq
        · simp [hready] at hq
        · simp [hq.2]
      simp [nextRound?, hwoken]

theorem Booked.step?_ne_none (hb : w.Booked t due) : w.step? su ≠ none := by
  rcases hb.2 with htimer | ⟨-, hawake⟩
  · have hdue : w.nextDue ≠ none := by
      simp [nextDue, List.min?_eq_none_iff, List.ne_nil_of_mem htimer]
    unfold step?
    split
    · simp
    · split
      · simp
      · unfold nextRound?
        split_ifs <;> simp [hdue]
  · exact Queued.step?_ne_none (.inr hawake)

/-- Whoever stood back has a turn after that. -/
theorem Queued.nextRound (hq : w.Queued t) (hr : w.running = none) (h : w.nextRound? = some v)
    (hp : w.now < v.now → w.ready = []) : v.now = w.now ∧ v.Awake t := by
  have awake (hawake : w.Awake t) : v.Awake t := (Hears.nextRound hr h).awake t hawake
  rcases nextRound_cases hr h with ⟨hplan, hwoken⟩ | ⟨hmain, hback, due, hplan, -, -⟩
  · exact ⟨congrArg Plan.now hplan, hq.elim (hwoken t) awake⟩
  · -- nobody stands back, so the task is ready, and the clock cannot have moved
    have hawake : w.Awake t := hq.resolve_left (by simp [hback])
    have hready : w.ready ≠ [] := by
      rcases hawake with h1 | h1 | h1
      · simp [hr] at h1
      · exact List.ne_nil_of_mem h1
      · simp [hmain] at h1
    have hnow : v.now = max w.now due := congrArg Plan.now hplan
    have hstill : ¬ w.now < v.now := mt hp hready
    exact ⟨by omega, awake hawake⟩

theorem Booked.nextRound (hb : w.Booked t due) (hr : w.running = none) (h : w.nextRound? = some v)
    (hp : w.now < v.now → w.ready = []) : v.Booked t due := by
  obtain ⟨hle, htimer | ⟨rfl, hawake⟩⟩ := hb
  · rcases nextRound_cases hr h with ⟨hplan, -⟩ | ⟨-, -, first, hplan, hfirst, hwoken⟩
    · have hnow : v.now = w.now := congrArg Plan.now hplan
      have htimers : v.timers = w.timers := congrArg Plan.timers hplan
      exact ⟨hnow.trans_le hle, .inl (htimers ▸ htimer)⟩
    · have hnow : v.now = max w.now first := congrArg Plan.now hplan
      have htimers : v.timers = w.timers.filter (first < ·.1) := congrArg Plan.timers hplan
      have hsoonest : first ≤ due := hfirst _ htimer
      refine ⟨by omega, ?_⟩
      by_cases hdue : due ≤ first
      · exact .inr ⟨by omega, hwoken _ htimer hdue⟩
      · exact .inl (htimers ▸ List.mem_filter.2 ⟨htimer, by simpa using hdue⟩)
  · obtain ⟨hnow, hawake'⟩ := Queued.nextRound (.inr hawake) hr h hp
    exact ⟨hnow.le, .inr ⟨hnow.symm, hawake'⟩⟩

/-- A task that is spared by its own turn has not been asked to end. -/
theorem Spared.of_turn {x : Task} (hx : w.task? t = some x) (hs : (w.turn t).Spared t) : x.cancelled = false := by
  have hcore : w.core.tasks[t]? = some x.activity := by rw [getElem?_core, hx]; rfl
  rcases tasks_turn w t with h | ⟨-, h⟩
  · exact hs.kept (a := x.activity) (by rw [h, hcore])
  · refine hs.kept (a := x.activity.finish .cancelled) ?_
    rw [h, List.getElem?_modify_eq, hcore]
    rfl

end World

/-! Whatever happens -/

/-- The clock moves on only when nobody is ready. -/
def Deed.Punctual (d : Deed) : Prop := d.before.now < d.after.now → d.before.ready = []

instance (d : Deed) : Decidable d.Punctual := inferInstanceAs (Decidable (_ → _))

section

open World (Honors Queued Booked)

variable {su : Setup} {w v : World} {m : Option Nat} {σ : List Signal} {t : Nat} {a : Activity}

/-- All but a round honors what a task has planned that does not move. -/
theorem Happens.honors (h : Happens su w m σ v) (hm : m ≠ some t) (ha : w.core.tasks[t]? = some a)
    (hst : a.stack ≠ []) (hs : v.Spared t) :
    (∃ i, i ≠ t ∧ w.Honors i v) ∨ (w.running = none ∧ w.nextRound? = some v) := by
  rw [World.getElem?_core] at ha
  obtain ⟨x, hx, rfl⟩ := Option.map_eq_some_iff.1 ha
  have busy (h0 : w.Vacant) : 0 ≠ t := fun h => hst (h0 x (h ▸ hx))
  cases h with
  | @move i hr => exact .inl ⟨i, fun hi => hm (hi ▸ rfl), .runTask su w i⟩
  | @turn j hr hj =>
    by_cases hjt : j = t
    · subst hjt
      have hc : x.cancelled = false := World.Spared.of_turn (w := { w with ready := w.ready.erase j }) hx hs
      exact .inl ⟨j + 1, by omega, .same (World.plan_turn (w := { w with ready := w.ready.erase j }) hx hc)⟩
    · have hcalled : w.Honors j { w with ready := w.ready.erase j } := .same rfl
      exact .inl ⟨j, hjt, hcalled.trans (.turn _ j)⟩
  | round hr hv => exact .inr ⟨hr, hv⟩
  | step s hr h0 => exact .inl ⟨0, busy h0, .takes su w s⟩
  | answer hr h0 => exact .inl ⟨0, busy h0, .same rfl⟩

/-- Whoever has a turn before the clock moves on, or when it shows some time, still has. -/
theorem Happens.keeps (h : Happens su w m σ v) (hm : m ≠ some t) (ha : w.core.tasks[t]? = some a)
    (hst : a.stack ≠ []) (he : a.ended = none) (hs : v.Spared t) (hp : w.now < v.now → w.ready = []) :
    (w.Queued t → v.now = w.now ∧ v.Queued t) ∧ ∀ due, w.Booked t due → v.Booked t due := by
  obtain ⟨-, i, hi, haffects⟩ := h.apart hm ha hst he hs
  have awake (hawake : w.Awake t) : v.Awake t := haffects.awake t hi.symm hawake
  rcases h.honors hm ha hst hs with ⟨j, hj, hhonors⟩ | ⟨hr, hv⟩
  · have hnow := hhonors.now
    constructor
    · intro hq
      exact ⟨hnow, hq.imp (hhonors.yielding t) awake⟩
    · rintro due ⟨hle, hplanned⟩
      refine ⟨hnow.trans_le hle, hplanned.imp (fun htimer => ?_) fun hdue => ⟨hdue.1.trans hnow.symm, awake hdue.2⟩⟩
      exact hhonors.timers _ htimer (Ne.symm hj)
  · constructor
    · intro hq
      obtain ⟨hnow, hawake⟩ := hq.nextRound hr hv hp
      exact ⟨hnow, .inr hawake⟩
    · intro due hb
      exact hb.nextRound hr hv hp

end

theorem World.now_step? {su : Setup} {w v : World} (h : w.step? su = some v) : v.now = w.now ∨ w.ready = [] := by
  unfold step? at h
  split at h
  next t hr =>
    obtain rfl := Option.some.inj h
    exact .inl (Honors.runTask su w t).now
  next hr =>
    split at h
    next t ready hready =>
      obtain rfl := Option.some.inj h
      exact .inl (Honors.turn { w with ready } t).now
    next hready => exact .inr hready

namespace Session

variable {su : Setup} {s s' : Session}

theorem now_step? (h : s.step? su = some s') : s'.world.now = s.world.now ∨ s.world.ready = [] := by
  unfold step? at h
  split at h
  · split at h
    · obtain rfl := Option.some.inj h
      exact .inl rfl
    · split at h
      · obtain rfl := Option.some.inj h
        exact .inl (congrArg Plan.now (World.plan_dropStack s.world 0))
      · obtain ⟨v, hv, rfl⟩ := Option.map_eq_some_iff.1 h
        exact World.now_step? hv
  · split at h
    · simp at h
    · obtain rfl := Option.some.inj h
      rw [world_startStep]
      exact .inl (World.Honors.takes su s.world _).now

/-- In a session the clock moves on only when nobody is ready. -/
theorem punctual_deedsOf (n : Nat) (s : Session) : ∀ d ∈ s.deedsOf su n, d.Punctual := by
  induction n generalizing s with
  | zero => simp [deedsOf]
  | succ n ih =>
    unfold deedsOf
    cases hs : s.step? su with
    | none => simp
    | some s' =>
      intro d hd
      rcases List.mem_cons.1 hd with rfl | hd
      · intro hlt
        exact (now_step? hs).resolve_left hlt.ne'
      · exact ih s' d hd

end Session

end PageTest
