import PageTest.Proofs.Polling.Handover
import PageTest.Proofs.Polling.Veil

/-! What a driver at its rounds does, and what the scheduler does for it, seen from a world that is
without it: nothing, but that the others have their turns and their timers. -/

namespace PageTest

namespace World

variable {t i n a : Nat} {w v u : World}

/-! The driver's own moves -/

/-- A move of the main task that nobody else sees. -/
structure Apace (w v : World) : Prop where
  now : v.now = w.now
  running : v.running = w.running
  main : v.task? 0 = w.task? 0
  veil : ∀ n a, v.veil n a = w.veil n a

/-- Nobody but the main task waits for a task. -/
def Lone (i : Nat) (w : World) : Prop := ∀ t, w.waiter? i = some t → t = 0

theorem waiter?_veil (w : World) (h : i ≠ 0) : (w.veil n a).waiter? i = (w.waiter? i).filter (· ≠ 0) := by
  rw [waiter?, waiter?, task?_veil w h]
  cases w.task? i <;> rfl

theorem lone_iff (h : i ≠ 0) : w.Lone i ↔ (w.veil n a).waiter? i = none := by
  rw [waiter?_veil w h, Lone]
  cases hw : w.waiter? i with
  | none => simp
  | some t => simp [Option.filter]

namespace Apace

theorem refl (w : World) : Apace w w := ⟨rfl, rfl, rfl, fun _ _ => rfl⟩

theorem trans (h : Apace w v) (h' : Apace v u) : Apace w u :=
  ⟨h'.now.trans h.now, h'.running.trans h.running, h'.main.trans h.main,
    fun n a => (h'.veil n a).trans (h.veil n a)⟩

theorem spend (w : World) : Apace w w.spend := ⟨rfl, rfl, rfl, fun _ _ => rfl⟩

theorem drainInto (w : World) (d : Drive) : Apace w (Frame.drainInto w d).1 :=
  ⟨rfl, rfl, rfl, fun n a => by simp [World.veil, Frame.drainInto, Log.history, Log.drain]⟩

theorem clearTimer (w : World) : Apace w (w.clearTimer 0) :=
  ⟨rfl, rfl, rfl, fun n a => by simp [World.veil, World.clearTimer, List.filter_filter]⟩

theorem setTimer (w : World) (due : Nat) : Apace w (w.setTimer 0 due) :=
  ⟨rfl, rfl, rfl, fun n a => by simp [World.veil, World.setTimer, List.filter_append, List.filter_filter]⟩

theorem waitFor (h0 : i ≠ 0) (hl : w.Lone i) : Apace w (w.waitFor 0 i) := by
  refine ⟨rfl, rfl, task?_modifyTask_other w _ h0.symm, fun n a => ?_⟩
  simp only [World.veil, World.waitFor, World.modifyTask]
  congr 1
  refine List.ext_getElem? fun j => ?_
  rcases Nat.eq_zero_or_pos j with rfl | hj
  · simp [List.getElem?_set]
  · have hj0 : 0 ≠ j := by omega
    simp only [List.getElem?_set_ne hj0, List.getElem?_map, List.getElem?_modify]
    by_cases hij : i = j
    · subst hij
      cases hx : w.tasks[i]? with
      | none => simp
      | some x =>
        have hw : (some 0).filter (· ≠ 0) = x.waiter.filter (· ≠ 0) := by
          cases hxw : x.waiter with
          | none => rfl
          | some t =>
            obtain rfl := hl t (by simp [waiter?, task?, hx, hxw])
            rfl
        simpa [Task.veil] using hw
    · simp [hij]

end Apace

/-- The main task is changed. -/
theorem veil_modifyMain (w : World) (f : Task → Task) : (w.modifyTask 0 f).veil n a = w.veil n a := by
  simp only [veil, modifyTask]
  congr 1
  refine List.ext_getElem? fun j => ?_
  rcases Nat.eq_zero_or_pos j with rfl | hj
  · simp [List.getElem?_set]
  · have hj0 : 0 ≠ j := by omega
    simp [List.getElem?_set_ne hj0, hj0]

end World

open World

variable {su : Setup} {t i n a : Nat} {w v u : World}

namespace Frame

variable {d : Drive} {phase : DrivePhase}

theorem apace_joined (w : World) (d : Drive) (how : TaskReport) : Apace w (joined w d how).1 := by
  unfold joined
  split_ifs
  · exact .spend w
  · exact .refl w

/-- A driver that does not give its load up is seen by nobody. -/
theorem apace_runDrive (hp : 1 ≤ su.driver.pollIntervalMs) (h0 : d.load ≠ 0) (hl : w.Lone d.load)
    (hd : phase = .look false → w.now < d.deadline) : Apace w (runDrive su w 0 d phase).1 := by
  cases phase with
  | look fin =>
    have hdr : Apace w { w with log := w.log.drain.2 } := .drainInto w d
    have hlone : World.Lone d.load { w with log := w.log.drain.2 } := hl
    cases fin with
    | true => exact hdr
    | false =>
      rw [Watch.runDrive_look]
      generalize ({ w with log := w.log.drain.2 } : World) = v at hdr hlone ⊢
      dsimp only
      have hw := hdr.trans (.waitFor h0 hlone)
      rw [if_neg (show ¬ d.deadline ≤ w.now from Nat.not_le.2 (hd rfl)),
        if_neg (show ¬ su.driver.pollIntervalMs = 0 by omega)]
      split
      · exact hw
      · split
        · exact hdr.trans (apace_joined ..)
        · exact hw.trans (.setTimer ..)
  | watch due =>
    simp only [runDrive]
    split
    · split_ifs
      · exact .spend w
      · exact (Apace.clearTimer w).trans (apace_joined ..)
    · split_ifs
      · exact .spend w
      · exact .refl w
  | settling =>
    simp only [runDrive]
    split
    · exact .spend w
    · exact .refl w
    · exact .refl w
  | stopping =>
    simp only [runDrive]
    split
    · exact .refl w
    · exact (Apace.spend w).trans (.drainInto _ d)
    · exact .refl w

/-- A driver whose load has ended does not wait any more. -/
theorem waits_runDrive (su : Setup) (w : World) (self : Nat) (d : Drive) (he : (w.ended? d.load).isSome = true)
    (hp : phase ≠ .look false) : (runDrive su w self d phase).2.waits = false := by
  obtain ⟨how, he⟩ := Option.isSome_iff_exists.1 he
  cases phase with
  | look fin =>
    cases fin with
    | true => rfl
    | false => exact absurd rfl hp
  | watch due =>
    simp only [runDrive, he, joined]
    split_ifs <;> rfl
  | settling =>
    simp only [runDrive, he]
    cases how <;> rfl
  | stopping =>
    simp only [runDrive, he]
    cases how <;> rfl

end Frame

/-- What a move of the driver comes to. -/
theorem World.apace_runTask (su : Setup) {d : Drive} {phase : DrivePhase} {below : List Frame}
    (hp : 1 ≤ su.driver.pollIntervalMs) (hr : w.running = some 0) (hx : w.Drives d phase below)
    (h0 : d.load ≠ 0) (hl : w.Lone d.load) (hd : phase = .look false → w.now < d.deadline) :
    (w.runTask su 0).now = w.now ∧ (∀ n a, (w.runTask su 0).veil n a = w.veil n a) ∧
      (w.runTask su 0).running = if (Frame.runDrive su w 0 d phase).2.waits then none else some 0 := by
  obtain ⟨x, hx, hs, hret, hc⟩ := hx
  have hap := Frame.apace_runDrive hp h0 hl hd
  rw [runTask_frame su hx hs, hret]
  simp only [Frame.act, Frame.run]
  generalize (Frame.runDrive su w 0 d phase).1 = v at hap ⊢
  generalize (Frame.runDrive su w 0 d phase).2 = m
  have put (st : List Frame) (ret : Option Outcome) (n a : Nat) :
      (v.modifyTask 0 fun task => { task with stack := st, returned := ret }).veil n a = w.veil n a :=
    (veil_modifyMain v _).trans (hap.veil n a)
  cases m with
  | goOn f => exact ⟨hap.now, put _ _, hap.running.trans hr⟩
  | call f callee => exact ⟨hap.now, put _ _, hap.running.trans hr⟩
  | leave o => exact ⟨hap.now, put _ _, hap.running.trans hr⟩
  | halt f =>
    -- The driver is not asked to end.
    have hk : ((({ v.modifyTask 0 fun task => { task with stack := f :: below, returned := none } with
        running := none } : World).task? 0).map (·.cancelled)).getD false = false := by
      have := task?_modifyTask_self v (fun task => { task with stack := f :: below, returned := none }) 0
      rw [hap.main, hx] at this
      rw [show World.task? { v.modifyTask 0 _ with running := none } 0 = _ from this]
      exact hc
    simp only [World.apply, hk]
    refine ⟨hap.now, fun n a => ?_, rfl⟩
    rw [← put (f :: below) none n a]
    simp [World.veil, modifyTask, hap.running, hr, Option.filter]

/-! Turns and rounds -/

namespace World

/-- A turn is handed out in both worlds. -/
theorem veil_turn (h : w.Hidden) (hr : w.running = none) (ht : t ≠ 0) (n a : Nat) :
    ∃ a', (w.veil n a).turn t = (w.turn t).veil n a' ∧ (w.turn t).Hidden ∧ (w.turn t).now = w.now ∧
      ((w.turn t).running = none ∨ a' = (w.turn t).allowance) := by
  have hv := task?_veil (n := n) (a := a) w ht
  unfold turn
  cases hx : w.task? t with
  | none =>
    rw [hx] at hv
    rw [hv]
    exact ⟨a, rfl, h, rfl, .inl hr⟩
  | some x =>
    rw [hx] at hv
    simp only [hv, Option.map_some, Task.veil]
    split_ifs
    · exact ⟨a, rfl, h, rfl, .inl hr⟩
    · have hc := unseen_cancelNow h ht
      exact ⟨a, hc.veil n a, hc.hidden, hc.now, .inl ((congrArg Core.running (core_cancelNow w t)).trans hr)⟩
    · refine ⟨fullAllowance, ?_, ⟨h.main, h.queue, h.handles⟩, rfl, .inr rfl⟩
      simp only [giveTurn, veil, Option.filter]
      simp [ht]

theorem veil_wakeAll (ts : List Nat) (w : World) (n a : Nat) :
    (w.wakeAll ts).veil n a = (w.veil n a).wakeAll (ts.filter (· ≠ 0)) := by
  induction ts generalizing w with
  | nil => rfl
  | cons t ts ih =>
    refine (ih (w.wake t)).trans ?_
    by_cases ht : t = 0
    · subst ht
      rfl
    · have hw : (w.wake t).veil n a = (w.veil n a).wake t := by
        simp only [wake, ht, if_false]
        by_cases hm : t ∈ w.ready
        · rw [if_pos hm, if_pos (show t ∈ (w.veil n a).ready from hm)]
        · rw [if_neg hm, if_neg (show t ∉ (w.veil n a).ready from hm)]
          rfl
      simp [wakeAll, ht, hw]

theorem veil_wakeYielding (h : 0 ∉ w.yielding) (n a : Nat) :
    w.wakeYielding.veil n a = (w.veil n a).wakeYielding := by
  have hf : w.yielding.filter (· ≠ 0) = w.yielding :=
    List.filter_eq_self.2 fun t ht => by simpa using fun h0 : t = 0 => h (h0 ▸ ht)
  rw [wakeYielding, veil_wakeAll, hf]
  rfl

/-- The clock has moved on, and all whose timers are due are woken. -/
def lapse (w : World) (due : Nat) : World :=
  let woken := (w.timers.filter (·.1 ≤ due)).map (·.2)
  { w with now := max w.now due, timers := w.timers.filter (due < ·.1) }.wakeAll woken

theorem alarm_wakeAll (ts : List Nat) (w : World) : (w.wakeAll ts).alarm = w.alarm := by
  induction ts generalizing w with
  | nil => rfl
  | cons t ts ih =>
    refine (ih (w.wake t)).trans ?_
    unfold wake
    split_ifs <;> rfl

/-- Only the main task has an alarm. -/
theorem advanceTo_eq_lapse {due : Nat} (h : w.alarm = none) : w.advanceTo due = w.lapse due := by
  have ha : (w.lapse due).alarm = none := (alarm_wakeAll _ _).trans h
  unfold advanceTo
  dsimp only
  split
  next alarm he => exact absurd (he.symm.trans ha) (by simp)
  next => rfl

theorem veil_advanceTo_lapse (w : World) (due n a : Nat) : (w.advanceTo due).veil n a = (w.lapse due).veil n a := by
  unfold advanceTo
  dsimp only
  split
  · split_ifs <;> rfl
  · rfl

theorem veil_advanceTo {due : Nat} (hn : n ≤ due) :
    (w.advanceTo due).veil due a = (w.veil n a).advanceTo due := by
  have hwoken : ((w.timers.filter (·.1 ≤ due)).map (·.2)).filter (· ≠ 0) =
      ((w.timers.filter (·.2 ≠ 0)).filter (·.1 ≤ due)).map (·.2) := by
    rw [List.filter_map, List.filter_filter, List.filter_filter]
    congr 1
    exact List.filter_congr fun tm _ => by simp [Bool.and_comm]
  have hv : ({ w with now := max w.now due, timers := w.timers.filter (due < ·.1) } : World).veil due a =
      { w.veil n a with now := max n due, timers := (w.timers.filter (·.2 ≠ 0)).filter (due < ·.1) } := by
    simp [veil, max_eq_right hn, List.filter_filter, Bool.and_comm]
  rw [veil_advanceTo_lapse, advanceTo_eq_lapse rfl, lapse, veil_wakeAll, hwoken, hv]
  rfl

theorem veil_advanceTo_alone {due : Nat} (n a : Nat) (h : ¬ ∃ tm ∈ w.timers, tm.2 ≠ 0 ∧ tm.1 ≤ due) :
    (w.advanceTo due).veil n a = w.veil n a := by
  have hlater (tm : Nat × Nat) (htm : tm ∈ w.timers) (h0 : tm.2 ≠ 0) : due < tm.1 :=
    Nat.lt_of_not_le fun hle => h ⟨tm, htm, h0, hle⟩
  have hwoken : ((w.timers.filter (·.1 ≤ due)).map (·.2)).filter (· ≠ 0) = [] := by
    refine List.filter_eq_nil_iff.2 fun t ht => ?_
    obtain ⟨tm, htm, rfl⟩ := List.mem_map.1 ht
    obtain ⟨htm, hle⟩ := List.mem_filter.1 htm
    simpa using fun h0 => h ⟨tm, htm, h0, by simpa using hle⟩
  have htimers : (w.timers.filter (due < ·.1)).filter (·.2 ≠ 0) = w.timers.filter (·.2 ≠ 0) := by
    rw [List.filter_filter]
    refine List.filter_congr fun tm htm => ?_
    by_cases h0 : tm.2 = 0
    · simp [h0]
    · simp [h0, hlater tm htm h0]
  rw [veil_advanceTo_lapse, lapse, veil_wakeAll, hwoken]
  simp only [veil, htimers]
  rfl

theorem veil_beginRound (hr : w.running = none) (n a : Nat) : w.beginRound.veil n a = w.veil n a := by
  unfold beginRound
  split_ifs
  · simp [giveTurn, veil, hr, Option.filter]
  · rfl

theorem hidden_beginRound (h : w.Hidden) : w.beginRound.Hidden := by
  unfold beginRound
  split_ifs
  · exact ⟨h.main, h.queue, h.handles⟩
  · exact h

theorem wakeYielding_nil (h : w.yielding = []) : w.wakeYielding = w := by
  have hw : ({ w with yielding := [] } : World) = w := by rw [← h]
  rw [wakeYielding, h]
  exact hw

theorem running_beginRound (hr : w.running = none) :
    w.beginRound.running = if w.mainReady then some 0 else none := by
  unfold beginRound
  split_ifs
  · rfl
  · exact hr

end World

end PageTest
