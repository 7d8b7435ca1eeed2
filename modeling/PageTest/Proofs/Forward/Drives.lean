import PageTest.Proofs.Forward.Navigation

/-! A driver that loads one path after another: how it starts a load and waits, and how it takes up again when the
load is over. -/

namespace PageTest.World

/-- The main task is the only one that is in the middle of something, and nobody waits for anything. -/
structure Rested (w : World) : Prop where
  main : ∃ x, w.task? 0 = some x ∧ x.cancelled = false
  others : ∀ i x, i ≠ 0 → w.task? i = some x → x.stack = []
  ready : w.ready = []
  mainReady : w.mainReady = false
  yielding : w.yielding = []
  timers : w.timers = []
  alarm : w.alarm = none
  notices : w.scene.notices = []

variable {su : Setup} {w : World} {main : Task} {t due began : Nat} {d : Desk} {D : Drive}
variable {rest : List String} {results : List RunReport} {below : List Frame}

theorem Rested.engaged (hw : w.Rested) : w.Engaged 0 := by
  obtain ⟨x, hx, -⟩ := hw.main
  exact ⟨⟨x, hx⟩, fun h => absurd rfl h⟩

/-- To wait for a task does not change what the others are in the middle of. -/
theorem waitFor_working (hu : t ≠ 0) (w : World) (d : Desk) (st : List Frame) (ret : Option Outcome) :
    (w.working 0 d st ret).waitFor 0 t = (w.waitFor 0 t).working 0 d st ret := by
  have htasks : (w.tasks.modify 0 fun x => { x with stack := st, returned := ret }).modify t
      (fun x => { x with waiter := some 0 }) = (w.tasks.modify t fun x => { x with waiter := some 0 }).modify 0
        (fun x => { x with stack := st, returned := ret }) := by
    refine List.ext_getElem? fun j => ?_
    by_cases h0 : 0 = j
    · subst h0
      simp [hu]
    · simp [List.getElem?_modify, h0]
  simp only [waitFor, working, idle, parked, modifyTask, htasks]

/-- The driver starts a load. -/
theorem drive_working {x : Task} (hx : w.task? 0 = some x) (hclock : su.overflows d.now su.driver.timeoutSecs = false)
    (p : String) (st : List Frame) (ret : Option Outcome) : World.drive su (w.working 0 d st ret) p =
      .ok ((w.start [.load p .arriving]).2.working 0 d st ret,
        .drive ⟨p, w.tasks.length, d.now, d.now + su.driver.timeoutSecs * 1000, []⟩ (.look false)) := by
  have hload : ((w.working 0 d st ret).start [.load p .arriving]).1 = w.tasks.length := List.length_modify _ _ _
  have hnot : ¬ su.overflows (w.working 0 d st ret).now su.driver.timeoutSecs = true :=
    Bool.eq_false_iff.1 hclock
  rw [World.drive, if_neg hnot, ← start_working hx, ← hload]
  rfl

theorem drainInto_working (w : World) (t : Nat) (d : Desk) (st : List Frame) (ret : Option Outcome) (D : Drive) :
    Frame.drainInto (w.working t d st ret) D =
      (w.working t { d with log := d.log.drain.2 } st ret, { D with logs := D.logs ++ d.log.waiting }) := rfl

/-- The driver looks into a log with nothing new in it, and waits. -/
theorem Engaged.watches (hw : w.Engaged 0) (hmain : ∃ x, w.task? 0 = some x ∧ x.cancelled = false)
    (hload : ∃ x, w.task? D.load = some x ∧ x.ended = none) (hne : D.load ≠ 0) (htimers : w.timers = [])
    (hlog : d.log.waiting = []) (hdue : d.now < D.deadline) (hpoll : su.driver.pollIntervalMs ≠ 0) :
    (w.working 0 d (.drive D (.look false) :: below) none).Leads su
      ((World.parked { w.waitFor 0 D.load with timers := [(d.now + su.driver.pollIntervalMs, 0)] } 0
        (.drive D (.watch (d.now + su.driver.pollIntervalMs)) :: below) none).idle d) := by
  obtain ⟨x, hx, hc⟩ := hmain
  obtain ⟨y, hy, he⟩ := hload
  have hx' : (w.waitFor 0 D.load).task? 0 = some x := (task?_modifyTask_other w _ hne.symm).trans hx
  refine hw.halt ?_ (by exact hx') hc
  have hempty : d.log.drain.2 = d.log := by
    rw [Log.drain, hlog, List.append_nil, ← hlog]
  have hdrain := drainInto_working w 0 d (.drive D (.look false) :: below) none D
  rw [hempty, hlog, List.append_nil] at hdrain
  have hended : (w.working 0 d (.drive D (.look false) :: below) none).ended? D.load = none := by
    rw [ended?, show (w.working 0 d _ none).task? D.load = some y from (task?_parked_other hne w _ none).trans hy]
    exact he
  have hwaiting :
      (w.working 0 d (.drive D (.look false) :: below) none).log.waiting.contains ⟨.testEnd, D.path⟩ = false := by
    rw [show (w.working 0 d (.drive D (.look false) :: below) none).log.waiting = [] from hlog]
    rfl
  show Frame.runDrive su _ 0 D (.look false) = _
  rw [Frame.runDrive, hdrain]
  simp only [hwaiting, hended]
  rw [if_neg (by simp), if_neg (by simp), if_neg (by exact Nat.not_le.2 hdue), if_neg hpoll, waitFor_working hne]
  have hset (due : Nat) : ((w.waitFor 0 D.load).working 0 d (.drive D (.look false) :: below) none).setTimer 0 due =
      World.working { w.waitFor 0 D.load with timers := [(due, 0)] } 0 d (.drive D (.look false) :: below) none := by
    rw [setTimer, show ((w.waitFor 0 D.load).working 0 d _ none).timers = [] from htimers]
    rfl
  rw [hset]
  rfl

/-- A load has its first turn, and the main task waits for it. -/
structure Launched (su : Setup) (w : World) (main : Task) (t : Nat) (p : String) (now : Nat) (below : List Frame) :
    Prop where
  sole : w.Sole main t
  hushed : w.Hushed (now + su.driver.pollIntervalMs)
  stack : main.stack = .drive ⟨p, t, now, now + su.driver.timeoutSecs * 1000, []⟩
    (.watch (now + su.driver.pollIntervalMs)) :: below
  returned : main.returned = none
  cancelled : main.cancelled = false

/-- The driver starts a load, looks into the log for the first time and waits; the load has its turn. -/
theorem Rested.launches (hw : w.Rested) (hclock : su.overflows d.now su.driver.timeoutSecs = false)
    (htime : su.driver.timeoutSecs ≠ 0) (hpoll : su.driver.pollIntervalMs ≠ 0) (hlog : d.log.waiting = [])
    (began : Nat) (p : String) (rest : List String) (results : List RunReport) (below : List Frame) :
    ∃ (w' : World) (main : Task) (t : Nat), w'.Launched su main t p d.now (.driveAll began rest results :: below) ∧
      (w.working 0 d (.driveAll began (p :: rest) results :: below) none).Leads su
        (w'.working t { d with allowance := fullAllowance } [.load p .arriving] none) := by
  obtain ⟨x, hx, hc⟩ := hw.main
  set t := w.tasks.length
  have hlt : 0 < t := (List.getElem?_eq_some_iff.1 hx).1
  have hne : t ≠ 0 := hlt.ne'
  set D : Drive := ⟨p, t, d.now, d.now + su.driver.timeoutSecs * 1000, []⟩
  set due := d.now + su.driver.pollIntervalMs
  set st := Frame.drive D (.watch due) :: .driveAll began rest results :: below
  set w₁ := (w.start [.load p .arriving]).2
  have hnew : w₁.task? t = some (.start [.load p .arriving]) := task?_started w _
  have hmain : w₁.task? 0 = some x := task?_start hx _
  have hstarts : (w.working 0 d (.driveAll began (p :: rest) results :: below) none).Leads su
      (w₁.working 0 d (.drive D (.look false) :: .driveAll began rest results :: below) none) := by
    refine hw.engaged.call ?_
    show Frame.runDriveAll su _ began results (p :: rest) = _
    rw [Frame.runDriveAll, drive_working hx hclock p]
  have hlooks : (w₁.working 0 d (.drive D (.look false) :: .driveAll began rest results :: below) none).Leads su
      ((World.parked { w₁.waitFor 0 t with timers := [(due, 0)] } 0 st none).idle d) :=
    Engaged.watches ⟨⟨x, hmain⟩, fun h => absurd rfl h⟩ ⟨x, hmain, hc⟩ ⟨_, hnew, rfl⟩ hne hw.timers hlog
      (by show d.now < d.now + _; omega) hpoll
  set w₂ : World := World.parked { w₁.waitFor 0 t with timers := [(due, 0)] } 0 st none
  have hload : w₂.task? t = some { Task.start [.load p .arriving] with waiter := some 0 } := by
    refine (task?_parked_other hne _ st none).trans ((task?_modifyTask_self w₁ _ t).trans ?_)
    rw [hnew]
    rfl
  have hdriver : w₂.task? 0 = some { x with stack := st, returned := none } :=
    task?_parked (w := { w₁.waitFor 0 t with timers := [(due, 0)] })
      ((task?_modifyTask_other w₁ _ hne.symm).trans hmain) st none
  have hready : w₂.ready = [t] := ready_start hw.ready [.load p .arriving]
  have hbusy : w₂.Busy := ⟨_, hdriver, by simp [st]⟩
  refine ⟨{ w₂ with ready := [] }, { x with stack := st, returned := none }, t, ?_, ?_⟩
  · refine ⟨⟨hdriver, ⟨_, _, _, rfl⟩, hne, ⟨_, hload, rfl, rfl, rfl⟩, fun i y h0 hi hy => ?_⟩,
      ⟨hbusy, rfl, hw.mainReady, hw.yielding, hw.alarm, rfl, hw.notices⟩, rfl, rfl, hc⟩
    have hy₁ : w₁.task? i = some y :=
      (task?_modifyTask_other w₁ _ hi).symm.trans ((task?_parked_other h0 _ st none).symm.trans hy)
    exact hw.others i y h0 (task?_of_start hi hy₁)
  · exact hstarts.trans (hlooks.trans (leads_turn hbusy hready hload rfl rfl))

/-- The load is over before the driver's sleep is: the driver takes the rest of the log and files a report. -/
theorem Sole.files (hw : w.Sole main D.load) (hh : w.Hushed due)
    (hs : main.stack = .drive D (.watch t) :: .driveAll began rest results :: below) (hret : main.returned = none)
    (hc : main.cancelled = false) (su : Setup) (d : Desk) (hearly : d.now < t) :
    ∃ w' : World, w'.Rested ∧ (w.working D.load d [] (some (.value .done))).Leads su
      (w'.working 0 { d with log := d.log.drain.2, allowance := fullAllowance - 1 }
        (.driveAll began rest (results ++ [.ofLogs D.path (D.logs ++ d.log.waiting) false (su.timeAt D.start)
          (d.now - D.start)]) :: below) none) := by
  obtain ⟨x, hx, he, hcx, hwait⟩ := hw.load
  set w₁ : World := (w.finished D.load .done).wake 0
  have hends : (w.working D.load d [] (some (.value .done))).Leads su (w₁.idle d) := by
    have hend : (w.working D.load d [] (some (.value .done))).Leads su
        (((w.finished D.load .done).wake? x.waiter).idle d) := leads_end (hw.engaged hh) hw.ne hx
    rw [hwait] at hend
    exact hend
  have hother (i : Nat) (hi : i ≠ D.load) : w₁.task? i = w.task? i := task?_finished_other hi w .done
  have hover : w₁.task? D.load = some { x with stack := [], returned := none, ended := some .done } :=
    task?_finished hx .done
  have hdriver : w₁.task? 0 = some main := (hother 0 hw.ne.symm).trans hw.driver
  set w₂ : World := { w₁ with mainReady := false }
  have hround : (w₁.idle d).Leads su (w₂.working 0 { d with allowance := fullAllowance }
      (.drive D (.watch t) :: .driveAll began rest results :: below) none) := by
    rw [← hs, ← hret]
    exact leads_round hh.ready rfl hh.yielding hdriver (by simp [hs])
  have hengaged (v : World) (hv : v.tasks = w₂.tasks) : v.Engaged 0 :=
    ⟨⟨main, by rw [task?, hv]; exact hdriver⟩, fun h => absurd rfl h⟩
  set w₃ : World := { w₂ with timers := [] }
  have hjoins : (w₂.working 0 { d with allowance := fullAllowance }
      (.drive D (.watch t) :: .driveAll began rest results :: below) none).Leads su
        (w₃.working 0 { d with allowance := fullAllowance - 1 }
          (.drive D (.look true) :: .driveAll began rest results :: below) none) := by
    refine (hengaged w₂ rfl).goOn ?_
    set st := Frame.drive D (.watch t) :: .driveAll began rest results :: below
    have hended : (w₂.working 0 { d with allowance := fullAllowance } st none).ended? D.load = some .done := by
      rw [ended?, show (w₂.working 0 _ st none).task? D.load = _ from (task?_parked_other hw.ne w₂ st none).trans hover]
      rfl
    have hclear : (w₂.working 0 { d with allowance := fullAllowance } st none).clearTimer 0 =
        w₃.working 0 { d with allowance := fullAllowance } st none := by
      rw [clearTimer, show (w₂.working 0 _ st none).timers = [(due, 0)] from hh.timers]
      rfl
    show Frame.runDrive su _ 0 D (.watch t) = _
    rw [Frame.runDrive, hended]
    simp only [hclear]
    exact if_neg fun hf => absurd hf.1 (Nat.not_le.2 hearly)
  have hleaves : (w₃.working 0 { d with allowance := fullAllowance - 1 }
      (.drive D (.look true) :: .driveAll began rest results :: below) none).Leads su
        (w₃.working 0 { d with log := d.log.drain.2, allowance := fullAllowance - 1 }
          (.driveAll began rest results :: below) (some (.value (.report (.ofLogs D.path (D.logs ++ d.log.waiting) false
            (su.timeAt D.start) (d.now - D.start)))))) :=
    (hengaged w₃ rfl).leave rfl
  refine ⟨w₃, ⟨⟨main, hdriver, hc⟩, fun i y h0 hy => ?_, hh.ready, rfl, hh.yielding, rfl, hh.alarm, hh.notices⟩,
    hends.trans (hround.trans (hjoins.trans (hleaves.trans ((hengaged w₃ rfl).goOn rfl))))⟩
  by_cases hi : i = D.load
  · subst hi
    obtain rfl := Option.some.inj (hover.symm.trans hy)
    rfl
  · exact hw.others i y h0 hi ((hother i hi).symm.trans hy)

end PageTest.World
