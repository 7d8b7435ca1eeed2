import PageTest.Proofs.Polling.Meek
import PageTest.Proofs.Machine.Apart
import PageTest.Proofs.Drive.Watch

/-! What the machine's own scheduler is to the main task and to the one that it waits for, when it
hands a turn to another task, begins a round, or moves the clock on. -/

namespace PageTest

open World

namespace World

/-- The main task drives. -/
def Drives (w : World) (d : Drive) (phase : DrivePhase) (below : List Frame) : Prop :=
  ∃ x, w.task? 0 = some x ∧ x.stack = .drive d phase :: below ∧ x.returned = none ∧
    x.cancelled = false

/-- The main task has been promised a turn as soon as the task `L` has ended. -/
structure Awaits (L : Nat) (w : World) : Prop where
  waiter : w.waiter? L = some 0
  turn : w.running ≠ some 0 → (w.ended? L).isSome = true → w.mainReady = true

theorem Poised.load_ne {L : Nat} {w : World} (h : w.Poised L) : L ≠ 0 := by have := h.load; omega

/-- A promise outlasts what others do. -/
theorem Aloof.awaits {L : Nat} {w u : World} (h : Aloof L w u) (hr : w.running ≠ some 0) (ha : w.Awaits L) :
    u.Awaits L := by
  refine ⟨h.waiter ha.waiter, fun _ hs => ?_⟩
  rcases h.ended with h1 | h1
  · exact h.mainReady (ha.turn hr (h1 ▸ hs))
  · exact h1 ha.waiter

end World

/-- A task that has ended stays so. -/
theorem World.ended?_runTask (w : World) (su : Setup) (t i : Nat) (h : (w.ended? i).isSome = true) :
    ((w.runTask su t).ended? i).isSome = true := by
  rw [ended?_core] at h ⊢
  cases ha : w.core.tasks[i]? with
  | none => simp [ha] at h
  | some a =>
    have he : a.ended.isSome = true := by simpa [ha] using h
    by_cases hi : i = t
    · subst hi
      cases hs : a.stack with
      | nil =>
        rw [core_runTask_nil su ha hs]
        dsimp only
        split_ifs
        · simpa [ha] using he
        · simp [ha, Activity.finish]
      | cons f rest =>
        obtain ⟨b, hb, hu⟩ := (f.apart_act su w i a.returned).tasks i a ha
        rw [core_runTask su ha hs, Core.settle_self hb]
        have hbe : b.ended.isSome = true := hu.ended ▸ he
        generalize (f.act su w i a.returned).2 = m
        cases m with
        | halt g =>
          simp only [Activity.moved]
          split_ifs
          · simp [Activity.finish]
          · simpa [Activity.put] using hbe
        | _ => simpa [Activity.moved, Activity.put] using hbe
    · obtain ⟨b, hb, hu⟩ := runTask_other su hi ha
      rw [hb]
      simpa [hu.ended] using he

/-- What handing the turn to a task is to the main task. -/
structure World.Handed (L t : Nat) (v u : World) : Prop where
  aloof : Aloof L v u
  running : ∀ i, u.running = some i → i = t ∧ v.doomed? t = false
  ended : u.ended? L = v.ended? L ∨ (t = L ∧ u.ended? L = some .cancelled)
  doomed : t = L → v.doomed? L = true → (u.ended? L).isSome = true

theorem World.handed (L : Nat) {t : Nat} {v : World} (ht : t ≠ 0) (hr : v.running = none) :
    Handed L t v (v.turn t) := by
  unfold turn
  cases hx : v.task? t with
  | none => exact ⟨.refl v, by simp [hr], .inl rfl, fun htL hd => by subst htL; simp [doomed?, hx] at hd⟩
  | some x =>
    dsimp only
    split_ifs with he hc
    · exact ⟨.refl v, by simp [hr], .inl rfl, fun htL _ => by subst htL; simpa [ended?, hx] using he⟩
    · have hcore := core_cancelNow v t
      have hself : (v.cancelNow t).ended? t = some .cancelled := by
        rw [ended?_core, hcore]
        simp [Core.cancelNow, getElem?_core, hx, Activity.finish]
      refine ⟨.cancelNow v ht, fun i hi => ?_, ?_, fun htL _ => by subst htL; simp [hself]⟩
      · rw [show (v.cancelNow t).running = v.running from congrArg Core.running hcore, hr] at hi
        simp at hi
      · by_cases htL : t = L
        · exact .inr ⟨htL, htL ▸ hself⟩
        · refine .inl ?_
          rw [ended?_core, ended?_core, hcore]
          simp [Core.cancelNow, htL]
    · refine ⟨.same rfl, fun i hi => ⟨(Option.some.inj hi).symm, by simpa [doomed?, hx] using hc⟩,
        .inl rfl, fun htL hd => ?_⟩
      subst htL
      simp [doomed?, hx, hc] at hd

/-- A round begins, with a turn of the main task if it is to have one. -/
def World.beginRound (w : World) : World :=
  if w.mainReady then { w with mainReady := false }.giveTurn 0 else w

/-- What the beginning of a round is to the main task. -/
structure World.Begun (L : Nat) (v u : World) : Prop where
  now : u.now = v.now
  task : u.task? 0 = v.task? 0
  timers : u.mainTimers = v.mainTimers
  ready : u.ready = v.ready
  ended : u.ended? L = v.ended? L
  doomed : u.doomed? L = v.doomed? L
  running : u.running ≠ some L
  turn : v.mainReady = true → u.running = some 0
  awaits : v.waiter? L = some 0 → ((v.ended? L).isSome = true → v.mainReady = true) → u.Awaits L
  poised : v.Poised L → u.Poised L

theorem World.begun (L : Nat) {v : World} (hL : L ≠ 0) (hr : v.running = none) :
    Begun L v v.beginRound := by
  unfold beginRound
  split_ifs with hm
  · exact ⟨rfl, rfl, rfl, rfl, rfl, rfl, by simpa [giveTurn] using hL.symm, fun _ => rfl,
      fun hw _ => ⟨hw, fun h0 => absurd rfl h0⟩, fun hp => { hp with }⟩
  · exact ⟨rfl, rfl, rfl, rfl, rfl, rfl, by simp [hr], fun h0 => absurd h0 hm,
      fun hw he => ⟨hw, fun _ => he⟩, id⟩

theorem World.Aloof.wakeYielding {L : Nat} (w : World) : Aloof L w w.wakeYielding := by
  have h : Aloof L w { w with yielding := [] } :=
    ⟨rfl, fun _ => id, rfl, id, fun _ h => h, id, .inl rfl, id, fun hp => { hp with yielding := by simp }⟩
  exact h.trans (.wakeAll _ _)

/-- Somebody who is woken is the main task, or ready. -/
theorem World.mainReady_wakeAll {ts : List Nat} (w : World) (h : 0 ∈ ts) : (w.wakeAll ts).mainReady = true := by
  induction ts generalizing w with
  | nil => simp at h
  | cons t ts ih =>
    rcases List.mem_cons.1 h with rfl | h
    · exact (Aloof.wakeAll (L := 0) ts (w.wake 0)).mainReady rfl
    · exact ih (w.wake t) h

/-- What the clock's moving on is to the main task. -/
structure World.Advanced (L due : Nat) (w v : World) : Prop where
  now : v.now = max w.now due
  main : w.task? 0 = v.task? 0
  timers : v.mainTimers = w.mainTimers.filter (due < ·.1)
  waiter : w.waiter? L = v.waiter? L
  turn : ∀ tm ∈ w.timers, tm.1 ≤ due → tm.2 = 0 → v.mainReady = true
  poised : w.Poised L → v.Poised L

theorem World.tasks_wakeAll (ts : List Nat) (w : World) : (w.wakeAll ts).tasks = w.tasks := by
  induction ts generalizing w with
  | nil => rfl
  | cons t ts ih =>
    refine (ih (w.wake t)).trans ?_
    unfold wake
    split_ifs <;> rfl

theorem World.advanced (L : Nat) (w : World) (due : Nat) : Advanced L due w (w.advanceTo due) := by
  set v₀ : World := { w with now := max w.now due, timers := w.timers.filter (due < ·.1) } with hv₀
  set woken := (w.timers.filter (·.1 ≤ due)).map (·.2) with hwoken
  have hp₀ (hp : w.Poised L) : v₀.Poised L := by
    refine { hp with timers := fun tm htm => ?_ }
    obtain ⟨hm, hlt⟩ := List.mem_filter.1 htm
    exact max_lt (hp.timers tm hm) (by simpa using hlt)
  have ht₀ : v₀.mainTimers = w.mainTimers.filter (due < ·.1) := by
    simp [hv₀, mainTimers, List.filter_filter, Bool.and_comm]
  have hal : Aloof L v₀ (v₀.wakeAll woken) := .wakeAll _ _
  have htasks : (v₀.wakeAll woken).tasks = w.tasks := tasks_wakeAll _ _
  have hturn : ∀ tm ∈ w.timers, tm.1 ≤ due → tm.2 = 0 → (v₀.wakeAll woken).mainReady = true :=
    fun tm hm hle h0 => mainReady_wakeAll _ (List.mem_map.2 ⟨tm, List.mem_filter.2 ⟨hm, by simpa using hle⟩, h0⟩)
  have hall : Advanced L due w (v₀.wakeAll woken) :=
    ⟨hal.now, by simp [task?, htasks], hal.timers.trans ht₀, by simp [waiter?, task?, htasks], hturn,
      fun hp => hal.poised (hp₀ hp)⟩
  unfold advanceTo
  dsimp only
  split
  · split_ifs
    · exact ⟨hall.now, hall.main, hall.timers, hall.waiter, fun _ _ _ _ => rfl,
        fun hp => { hall.poised hp with }⟩
    · exact hall
  · exact hall

end PageTest
