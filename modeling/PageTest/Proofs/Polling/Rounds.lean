import PageTest.Proofs.Polling.Duty

/-! The rounds of a driver that is the main task, under the machine's own scheduler: whatever step the
machine takes, the driver goes on as it should, or it is back. -/

namespace PageTest

open World

/-! The driver's own moves -/

namespace World

variable {L : Nat} {w v u : World} {below : List Frame} {x : Task}

/-- The stack of the main task is changed, and at most its turn is over. -/
structure Beside (L : Nat) (w v : World) : Prop where
  now : v.now = w.now
  timers : v.mainTimers = w.mainTimers
  ready : v.ready = w.ready
  mainReady : v.mainReady = w.mainReady
  task : v.task? L = w.task? L
  poised : w.Poised L → v.Poised L

theorem Beside.modifyMain (w : World) (f : Task → Task) (hL : L ≠ 0) : Beside L w (w.modifyTask 0 f) where
  now := rfl
  timers := rfl
  ready := rfl
  mainReady := rfl
  task := task?_modifyTask_other w f hL
  poised hp := { hp with
    load := by simpa [World.modifyTask] using hp.load
    spares := fun i x hi hx => hp.spares i x hi (by rwa [task?_modifyTask_other w f hi] at hx) }

/-- The driver goes on. -/
theorem drives_apply {m : Move} {d : Drive} {phase : DrivePhase} (hL : L ≠ 0)
    (hx : w.task? 0 = some x) (hc : x.cancelled = false)
    (hm : m.onto below = (.drive d phase :: below, none)) :
    Beside L w (w.apply 0 below m) ∧ (w.apply 0 below m).Drives d phase below ∧
      (w.apply 0 below m).running = if m.waits then none else w.running := by
  have put (ret : Option Outcome) : (w.modifyTask 0 fun task =>
      { task with stack := .drive d phase :: below, returned := ret }).task? 0 =
      some { x with stack := .drive d phase :: below, returned := ret } := by
    rw [task?_modifyTask_self, hx]
    rfl
  cases m with
  | goOn f =>
    obtain rfl : f = .drive d phase := by simpa [Move.onto] using hm
    exact ⟨.modifyMain w _ hL, ⟨_, put none, rfl, rfl, hc⟩, rfl⟩
  | halt f =>
    obtain rfl : f = .drive d phase := by simpa [Move.onto] using hm
    have hv : w.apply 0 below (.halt (.drive d phase)) = { w.modifyTask 0 fun task =>
        { task with stack := .drive d phase :: below, returned := none } with running := none } := by
      have := put none
      simp only [task?] at this
      simp [World.apply, task?, this, hc]
    rw [hv]
    have hb := Beside.modifyMain (L := L) w (fun task =>
      { task with stack := .drive d phase :: below, returned := none }) hL
    exact ⟨{ hb with poised := fun hp => { hb.poised hp with } }, ⟨_, put none, rfl, rfl, hc⟩, rfl⟩
  | call f callee => simp [Move.onto] at hm
  | leave o => simp [Move.onto] at hm

theorem back_apply (w : World) (hx : w.task? 0 = some x) (o : Outcome) :
    (w.apply 0 below (.leave o)).Back 0 below o := by
  refine ⟨{ x with stack := below, returned := some o }.activity, ?_, rfl, rfl⟩
  rw [getElem?_core]
  simp only [World.apply, task?_modifyTask_self, hx]
  rfl

/-! The driver waits for its load. -/

theorem waiter?_waitFor (w : World) (hL : L < w.tasks.length) : (w.waitFor 0 L).waiter? L = some 0 := by
  rw [waiter?, waitFor, task?_modifyTask_self, task?, List.getElem?_eq_getElem hL]
  rfl

theorem ended?_waitFor (w : World) : (w.waitFor 0 L).ended? L = w.ended? L := by
  rw [ended?, ended?, waitFor, task?_modifyTask_self]
  cases w.task? L <;> rfl

theorem doomed?_waitFor (w : World) : (w.waitFor 0 L).doomed? L = w.doomed? L := by
  rw [doomed?, doomed?, waitFor, task?_modifyTask_self]
  cases w.task? L <;> rfl

theorem Poised.waitFor (h : w.Poised L) : (w.waitFor 0 L).Poised L := { h with
  load := by simpa [World.waitFor, World.modifyTask] using h.load
  spares := fun i x hi hx => by
    by_cases hiL : i = L
    · subst hiL
      rw [World.waitFor, task?_modifyTask_self] at hx
      obtain ⟨y, hy, rfl⟩ := Option.map_eq_some_iff.1 hx
      exact h.spares i y hi hy
    · rw [World.waitFor, task?_modifyTask_other w _ hiL] at hx
      exact h.spares i x hi hx }

/-- To be asked to end is not to have ended. -/
theorem ended?_cancel (w : World) (t : Nat) : (w.cancel t).ended? t = w.ended? t := by
  rw [ended?_core, ended?_core, core_cancel]
  simp only [List.getElem?_modify_eq]
  cases w.core.tasks[t]? with
  | none => rfl
  | some a =>
    show (if a.ended.isSome then a else { a with cancelled := true }).ended = a.ended
    split_ifs <;> rfl

/-- The load was asked to end. -/
theorem doomed_cancel (hL : L ≠ 0) (hl : L < w.tasks.length) (he : w.ended? L = none) :
    (w.cancel L).doomed? L = true ∧ L ∈ (w.cancel L).ready := by
  obtain ⟨x, hx⟩ : ∃ x, w.task? L = some x := ⟨_, List.getElem?_eq_getElem hl⟩
  have hxe : x.ended.isSome = false := by simpa [ended?, hx] using he
  have hc : w.cancel L = (w.modifyTask L fun task => { task with cancelled := true }).wake L := by
    simp [cancel, hx, hxe]
  have hw (v : World) : L ∈ (v.wake L).ready ∧ (v.wake L).tasks = v.tasks := by
    simp only [wake, if_neg hL]
    split_ifs with hm
    · exact ⟨hm, rfl⟩
    · exact ⟨by simp, rfl⟩
  rw [hc]
  refine ⟨?_, (hw _).1⟩
  rw [doomed?, task?, (hw _).2]
  simp only [task?] at hx
  simp [modifyTask, hx]

end World

namespace AtWork

variable {su : Setup} {p : String} {L t₀ : Nat} {below : List Frame} {acts : List Act}
variable {w w' v : World} {d d' : Drive} {phase phase' : DrivePhase} {m : Move}

/-- The driver moves and goes on. -/
theorem goes_on (h : AtWork su p L t₀ below acts w d phase)
    (hact : Frame.runDrive su w 0 d phase = (v, m))
    (hm : m.onto below = (.drive d' phase' :: below, none)) (hv : v.task? 0 = w.task? 0)
    (hp : v.Poised L) (hd : d'.path = d.path ∧ d'.load = d.load ∧ d'.deadline = d.deadline)
    (hduty : ∀ u : World, Beside L v u → u.running = (if m.waits then none else v.running) →
      Duty su L t₀ (acts ++ [⟨some 0, w, u⟩]) u phase')
    (hset : phase' = .settling → phase = .settling ∨ phase = .look false) :
    Onto su p L t₀ below (acts ++ [⟨some 0, w, w.runTask su 0⟩]) (w.runTask su 0) phase := by
  obtain ⟨x, hx, hs, hret, hc⟩ := h.drives
  have hrun : w.runTask su 0 = v.apply 0 below m := by
    rw [runTask_frame su hx hs, hret, show (Frame.drive d phase).act su w 0 none = (v, m) from hact]
  obtain ⟨hb, hdr, hr⟩ := drives_apply hp.load_ne (hv.trans hx) hc hm
  rw [← hrun] at hb hdr hr
  exact .inl ⟨d', phase', ⟨hb.poised hp, hdr, hd.1.trans h.path, hd.2.1.trans h.load,
    hd.2.2.trans h.deadline, hduty _ hb hr⟩, hset⟩

/-- The driver is left. -/
theorem leaves {o : Outcome} (h : AtWork su p L t₀ below acts w d phase)
    (hact : Frame.runDrive su w 0 d phase = (v, .leave o)) (hv : v.task? 0 = w.task? 0)
    (ho : ∀ u : World, u.now = v.now → u.task? L = v.task? L →
      Parting su L t₀ (acts ++ [⟨some 0, w, u⟩]) u phase o) :
    Onto su p L t₀ below (acts ++ [⟨some 0, w, w.runTask su 0⟩]) (w.runTask su 0) phase := by
  obtain ⟨x, hx, hs, hret, hc⟩ := h.drives
  have hrun : w.runTask su 0 = v.apply 0 below (.leave o) := by
    rw [runTask_frame su hx hs, hret, show (Frame.drive d phase).act su w 0 none = (v, .leave o) from hact]
  have hb : Beside L v (v.apply 0 below (.leave o)) := .modifyMain v _ h.poised.load_ne
  rw [hrun]
  exact .inr ⟨o, back_apply v (hv.trans hx) o, ho _ hb.now hb.task⟩

theorem early_main (h : Early L (su.lastLook t₀) acts) (hL : L ≠ 0) (u : World) :
    Early L (su.lastLook t₀) (acts ++ [⟨some 0, w, u⟩]) := h.snoc fun h0 => absurd (by simpa using h0.symm) hL

/-- The end marker has come. The driver waits for its load to end. -/
theorem look_marked (h : AtWork su p L t₀ below acts w d (.look false))
    (hend : w.log.waiting.contains (endMarker d.path) = true) :
    Onto su p L t₀ below (acts ++ [⟨some 0, w, w.runTask su 0⟩]) (w.runTask su 0) (.look false) := by
  cases h.duty with
  | looking hr =>
    have hact := Watch.runDrive_look su w 0 d
    rw [h.load] at hact
    have hw₁ : World.Poised L { w with log := w.log.drain.2 } := { h.poised with }
    refine h.goes_on (hact.trans (if_pos hend)) rfl (task?_modifyTask_other _ _ h.poised.load_ne.symm) hw₁.waitFor
      ⟨rfl, h.load.symm, rfl⟩ (fun u hb hr' => ?_) fun _ => .inr rfl
    refine .settling ⟨?_, fun hn => absurd (hr'.trans hr) hn⟩
    rw [waiter?, hb.task]
    exact waiter?_waitFor _ hw₁.load.2

/-- The deadline has come. The load is asked to end, and this was the last look. -/
theorem look_late (h : AtWork su p L t₀ below acts w d (.look false)) (hp : 1 ≤ su.driver.pollIntervalMs)
    (hend : ¬ w.log.waiting.contains (endMarker d.path) = true) (hdl : d.deadline ≤ w.now) :
    Onto su p L t₀ below (acts ++ [⟨some 0, w, w.runTask su 0⟩]) (w.runTask su 0) (.look false) := by
  cases h.duty with
  | looking hr _ he hg hu hea =>
    have hL := h.poised.load_ne
    have hact := Watch.runDrive_look su w 0 d
    rw [h.load] at hact
    replace hact := (hact.trans (if_neg hend)).trans (if_pos hdl)
    set w₁ : World := { w with log := w.log.drain.2 }
    have hw₁ : w₁.Poised L := { h.poised with }
    have hcancel : w₁.Aloof L (w₁.cancel L) := .cancel w₁ hL
    have hd := doomed_cancel (w := w₁) hL h.poised.load.2 he
    have hended : (w₁.cancel L).ended? L = none := (ended?_cancel w₁ L).trans he
    obtain ⟨x, hx, -⟩ := h.drives
    have hmain : ((w₁.cancel L).waitFor 0 L).task? 0 = w.task? 0 :=
      (task?_modifyTask_other _ _ hL.symm).trans ((hcancel.main x hx).trans hx.symm)
    have hrunning : ((w₁.cancel L).waitFor 0 L).running = some 0 :=
      (congrArg Core.running (core_cancel w₁ L)).trans hr
    refine h.goes_on hact rfl hmain (hcancel.poised hw₁).waitFor ⟨rfl, h.load.symm, rfl⟩ (fun u hb hr' => ?_) (by simp)
    have hru : u.running = some 0 := hr'.trans hrunning
    refine .stopping ⟨?_, fun hn => absurd hru hn⟩ ?_ (by simpa [hru] using hL.symm) ?_ (fun _ => ?_)
      (fun how hh => ?_) (hu.snoc fun _ => he) (early_main hea hL u)
    · rw [waiter?, hb.task]
      exact waiter?_waitFor _ (hcancel.poised hw₁).load.2
    · rw [hb.now]
      exact hcancel.now.trans (hg.last hp (h.deadline ▸ hdl))
    · rw [doomed?, hb.task]
      exact (doomed?_waitFor _).trans hd.1
    · rw [hb.ready]
      exact hd.2
    · rw [ended?, hb.task] at hh
      exact absurd (((ended?_waitFor _).trans hended).symm.trans hh) (by simp)

/-- There is time left. The driver waits until its next look. -/
theorem look_again (h : AtWork su p L t₀ below acts w d (.look false)) (hp : 1 ≤ su.driver.pollIntervalMs)
    (hend : ¬ w.log.waiting.contains (endMarker d.path) = true) (hdl : ¬ d.deadline ≤ w.now) :
    Onto su p L t₀ below (acts ++ [⟨some 0, w, w.runTask su 0⟩]) (w.runTask su 0) (.look false) := by
  cases h.duty with
  | looking hr _ he hg hu hea =>
    have hact := Watch.runDrive_look su w 0 d
    rw [h.load] at hact
    replace hact := (hact.trans (if_neg hend)).trans (if_neg hdl)
    set w₁ : World := { w with log := w.log.drain.2 }
    rw [show w₁.ended? L = none from he] at hact
    replace hact := hact.trans (if_neg (by omega))
    have hw₁ : w₁.Poised L := { h.poised with }
    have hpv : ((w₁.waitFor 0 L).setTimer 0 (w.now + su.driver.pollIntervalMs)).Poised L := { hw₁.waitFor with
      timers := fun tm htm => by
        rcases List.mem_append.1 htm with h1 | h1
        · exact hw₁.waitFor.timers tm (List.mem_filter.1 h1).1
        · obtain rfl := List.mem_singleton.1 h1
          show w.now < w.now + su.driver.pollIntervalMs
          omega }
    refine h.goes_on hact rfl (task?_modifyTask_other _ _ h.poised.load_ne.symm) hpv ⟨rfl, h.load.symm, rfl⟩
      (fun u hb _ => ?_) (by simp)
    have hue : u.ended? L = none := by
      rw [ended?, hb.task]
      exact (ended?_waitFor w₁).trans he
    refine .watching ⟨?_, fun _ hs => by simp [hue] at hs⟩ ?_ (hg.next hp (by rw [h.deadline] at hdl; omega))
      (fun _ => hu.snoc fun _ => he) (early_main hea h.poised.load_ne u)
    · rw [waiter?, hb.task]
      exact waiter?_waitFor w₁ hw₁.load.2
    · rw [hb.timers]
      simp [mainTimers, setTimer, List.filter_append, List.filter_filter]

theorem turn_looking (h : AtWork su p L t₀ below acts w d (.look false)) (hp : 1 ≤ su.driver.pollIntervalMs) :
    Onto su p L t₀ below (acts ++ [⟨some 0, w, w.runTask su 0⟩]) (w.runTask su 0) (.look false) := by
  by_cases hend : w.log.waiting.contains (endMarker d.path) = true
  · exact h.look_marked hend
  · by_cases hdl : d.deadline ≤ w.now
    · exact h.look_late hp hend hdl
    · exact h.look_again hp hend hdl

theorem turn_joined (h : AtWork su p L t₀ below acts w d (.look true)) :
    Onto su p L t₀ below (acts ++ [⟨some 0, w, w.runTask su 0⟩]) (w.runTask su 0) (.look true) := by
  cases h.duty with
  | joined hr hnow hu hea =>
    refine h.leaves (v := { w with log := w.log.drain.2 }) rfl rfl fun u hun hut => ?_
    refine .finished (not_unended_snoc (.inl hu)) (fun r hro => ?_) (by rw [hun]; exact hnow)
    obtain rfl := by simpa using hro
    exact RunReport.ofLogs_not_timedOut _ _ _ _

theorem mem_timers {due : Nat} (hm : w.mainTimers = [(due, 0)]) : (due, 0) ∈ w.timers :=
  (List.mem_filter.1 (hm ▸ List.mem_singleton_self _ : (due, 0) ∈ w.mainTimers)).1

/-- At the rounds, the end of a load is noted before the sleep of its driver is over. -/
theorem not_tied (h : AtWork su p L t₀ below acts w d phase) : ¬ w.Tied su 0 L := by
  rintro ⟨hended, -, y, e, due, below', hy, hstack, hdue⟩
  obtain ⟨x, hx, hs, -⟩ := h.drives
  obtain rfl : x.activity = y := by
    rw [getElem?_core, hx] at hy
    exact Option.some.inj hy
  obtain ⟨⟨rfl, rfl⟩, -⟩ : (d = e ∧ phase = .watch due) ∧ below = below' := by
    simpa using hs.symm.trans hstack
  cases h.duty with
  | watching _ ht =>
    have := h.poised.timers _ (mem_timers ht)
    omega
  | due _ _ _ he => simp [he] at hended

theorem turn_watching {due : Nat} (h : AtWork su p L t₀ below acts w d (.watch due))
    (hr : w.running = some 0) :
    Onto su p L t₀ below (acts ++ [⟨some 0, w, w.runTask su 0⟩]) (w.runTask su 0) (.watch due) := by
  have hL := h.poised.load_ne
  cases h.duty with
  | watching ha ht hg hu hea =>
    have hnow : w.now < due := h.poised.timers _ (mem_timers ht)
    have hlast : w.now < su.lastLook t₀ := hnow.trans_le hg.le
    cases he : w.ended? L with
    | none =>
      have hact : Frame.runDrive su w 0 d (.watch due) = (w, .halt (.drive d (.watch due))) := by
        simp only [Frame.runDrive, h.load, he]
        exact if_neg (by omega)
      refine h.goes_on hact rfl rfl h.poised ⟨rfl, rfl, rfl⟩ (fun u hb hr' => ?_) (by simp)
      have hue : u.ended? L = none := by rw [ended?, hb.task]; exact he
      exact .watching ⟨by rw [waiter?, hb.task]; exact ha.waiter, fun _ hs => by simp [hue] at hs⟩
        (hb.timers.trans ht) hg (fun _ => (hu he).snoc fun _ => he) (early_main hea hL u)
    | some how =>
      have hended : ∀ u, ¬ Unended L (su.lastLook t₀) (acts ++ [⟨some 0, w, u⟩]) := fun u =>
        not_unended_snoc (.inr ⟨hlast, by simp [he]⟩)
      have hearly : ¬ (due ≤ w.now ∧ su.looksFirst L = true) := fun hf => by omega
      by_cases hd : how = .done
      · subst hd
        have hact : Frame.runDrive su w 0 d (.watch due) =
            ((w.clearTimer 0).spend, .goOn (.drive d (.look true))) := by
          simp only [Frame.runDrive, h.load, he]
          exact if_neg hearly
        have hp' : (w.clearTimer 0).spend.Poised L := { h.poised with
          timers := fun tm htm => h.poised.timers tm (List.mem_filter.1 htm).1 }
        refine h.goes_on hact rfl rfl hp' ⟨rfl, rfl, rfl⟩ (fun u hb hr' => ?_) (by simp)
        exact .joined (hr'.trans hr) (by rw [hb.now]; exact hlast) (hended u) (early_main hea hL u)
      · have hact : Frame.runDrive su w 0 d (.watch due) = (w.clearTimer 0, .leave (.fault .loadPanicked)) := by
          simp only [Frame.runDrive, h.load, he]
          exact (if_neg hearly).trans (if_neg hd)
        exact h.leaves hact rfl fun u hun hut =>
          .finished (hended u) (fun r hro => by simp at hro) (by rw [hun]; exact hlast)
  | due _ hwait ht he hg hu hea =>
    have hact : Frame.runDrive su w 0 d (.watch w.now) = (w.spend, .goOn (.drive d (.look false))) := by
      simp only [Frame.runDrive, h.load, he]
      exact if_pos le_rfl
    refine h.goes_on hact rfl rfl { h.poised with } ⟨rfl, rfl, rfl⟩ (fun u hb hr' => ?_) (by simp)
    exact .looking (hr'.trans hr) (hb.timers.trans ht) (by rw [ended?, hb.task]; exact he)
      (by rw [hb.now]; exact hg) (hu.snoc fun _ => he) (early_main hea hL u)

theorem turn_settling (h : AtWork su p L t₀ below acts w d .settling) :
    Onto su p L t₀ below (acts ++ [⟨some 0, w, w.runTask su 0⟩]) (w.runTask su 0) .settling := by
  cases h.duty with
  | settling ha =>
    cases he : w.ended? L with
    | none =>
      have hact : Frame.runDrive su w 0 d .settling = (w, .halt (.drive d .settling)) := by
        simp only [Frame.runDrive, h.load, he]
      refine h.goes_on hact rfl rfl h.poised ⟨rfl, rfl, rfl⟩ (fun u hb hr' => ?_) fun _ => .inl rfl
      have hue : u.ended? L = none := by rw [ended?, hb.task]; exact he
      exact .settling ⟨by rw [waiter?, hb.task]; exact ha.waiter, fun _ hs => by simp [hue] at hs⟩
    | some how =>
      by_cases hd : how = .done
      · subst hd
        have hact : Frame.runDrive su w 0 d .settling =
            (w.spend, .leave (.value (.report (Frame.reportOf su w.spend d false)))) := by
          simp only [Frame.runDrive, h.load, he]
          rfl
        refine h.leaves hact rfl fun u hun hut => .settled rfl fun r hro => ?_
        obtain rfl := by simpa using hro
        exact RunReport.ofLogs_not_timedOut _ _ _ _
      · have hact : Frame.runDrive su w 0 d .settling = (w, .leave (.fault .loadPanicked)) := by
          simp only [Frame.runDrive, h.load, he]
        exact h.leaves hact rfl fun u hun hut => .settled rfl fun r hro => by simp at hro

theorem turn_stopping (h : AtWork su p L t₀ below acts w d .stopping) :
    Onto su p L t₀ below (acts ++ [⟨some 0, w, w.runTask su 0⟩]) (w.runTask su 0) .stopping := by
  have hL := h.poised.load_ne
  cases h.duty with
  | stopping ha hnow hrL hdo hre hca hu hea =>
    have hu' (u : World) : Unended L (su.lastLook t₀) (acts ++ [⟨some 0, w, u⟩]) := hu.snoc fun hlt => by omega
    cases he : w.ended? L with
    | none =>
      have hact : Frame.runDrive su w 0 d .stopping = (w, .halt (.drive d .stopping)) := by
        simp only [Frame.runDrive, h.load, he]
      refine h.goes_on hact rfl rfl h.poised ⟨rfl, rfl, rfl⟩ (fun u hb hr' => ?_) (by simp)
      have hue : u.ended? L = none := by rw [ended?, hb.task]; exact he
      exact .stopping ⟨by rw [waiter?, hb.task]; exact ha.waiter, fun _ hs => by simp [hue] at hs⟩
        (hb.now.trans hnow) (by rw [hr']; simp [Move.waits]) (by rw [doomed?, hb.task]; exact hdo)
        (fun _ => hb.ready ▸ hre he) (fun how hh => by simp [hue] at hh) (hu' u) (early_main hea hL u)
    | some how =>
      obtain rfl := hca how he
      have hact : Frame.runDrive su w 0 d .stopping = ({ w.spend with log := w.log.drain.2 }, .leave (.value
          (.report (Frame.reportOf su (Frame.drainInto w.spend d).1 (Frame.drainInto w.spend d).2 true)))) := by
        simp only [Frame.runDrive, h.load, he]
        rfl
      exact h.leaves hact rfl fun u hun hut =>
        .stopped (hu' u) (early_main hea hL u) (hun.trans hnow) (by rw [ended?, hut]; exact he) ⟨_, rfl⟩

/-- A move of the driver. -/
theorem turn (h : AtWork su p L t₀ below acts w d phase) (hp : 1 ≤ su.driver.pollIntervalMs)
    (hr : w.running = some 0) :
    Onto su p L t₀ below (acts ++ [⟨some 0, w, w.runTask su 0⟩]) (w.runTask su 0) phase := by
  cases phase with
  | look fin =>
    cases fin with
    | true => exact h.turn_joined
    | false => exact h.turn_looking hp
  | watch due => exact h.turn_watching hr
  | settling => exact h.turn_settling
  | stopping => exact h.turn_stopping

/-! Moves of the others -/

/-- Another task moves. -/
theorem other {t : Nat} (h : AtWork su p L t₀ below acts w d phase) (hr : w.running = some t)
    (ht : t ≠ 0) :
    AtWork su p L t₀ below (acts ++ [⟨some t, w, w.runTask su t⟩]) (w.runTask su t) d phase := by
  have hal := aloof_runTask su h.poised ht
  have hend := w.ended?_runTask su t L
  set u := w.runTask su t with hu
  have hmove : w.running ≠ some 0 := by simpa [hr] using ht
  have awaits : u.Awaits L := hal.awaits hmove (h.awaits hmove)
  have unended (hs : u.ended? L = none) : w.ended? L = none := by
    by_contra hne
    have := hend (Option.ne_none_iff_isSome.1 hne)
    simp [hs] at this
  obtain ⟨x, hx, hdr⟩ := h.drives
  refine ⟨hal.poised h.poised, ⟨x, hal.main x hx, hdr⟩, h.path, h.load, h.deadline, ?_⟩
  refine h.duty.idle hmove awaits (fun due htm hg hun hea => ?_) fun hnow hrL hdo hre hca hun hea => ?_
  · have hnow : w.now < su.lastLook t₀ := (h.poised.timers _ (mem_timers htm)).trans_le hg.le
    exact .watching awaits (hal.timers.trans htm) hg
      (fun hs => (hun (unended hs)).snoc fun _ => unended hs) (hea.snoc fun _ => hnow)
  · have htL : t ≠ L := fun he => hrL (he ▸ hr)
    have hsame : u.ended? L = w.ended? L := by
      rw [ended?_core, ended?_core]
      cases hL : w.core.tasks[L]? with
      | none =>
        have := h.poised.load.2
        simp at hL
        omega
      | some a =>
        obtain ⟨a', ha', hun⟩ := World.runTask_other su htL.symm hL
        rw [ha']
        exact hun.ended
    exact .stopping awaits (hal.now.trans hnow) (running_runTask hr L htL.symm) (hal.doomed hdo)
      (fun hs => hal.ready L (hre (hsame ▸ hs))) (fun how hh => hca how (hsame ▸ hh))
      (hun.snoc fun hlt => by omega) (hea.snoc fun he => absurd (Option.some.inj he) htL)

/-! Turns are handed out -/

/-- Another task has a turn, or is given up. -/
theorem handed {t : Nat} {ready : List Nat} (h : AtWork su p L t₀ below acts w d phase)
    (hr : w.running = none) (hq : w.ready = t :: ready) :
    AtWork su p L t₀ below (acts ++ [⟨none, w, { w with ready }.turn t⟩]) ({ w with ready }.turn t) d phase := by
  have hL := h.poised.load_ne
  have ht : t ≠ 0 := fun he => h.poised.ready (by simp [hq, he])
  have hmove : w.running ≠ some 0 := by simp [hr]
  have hp : World.Poised L { w with ready } := { h.poised with
    ready := fun hm => h.poised.ready (by rw [hq]; exact List.mem_cons_of_mem _ hm) }
  have hand := World.handed L ht (v := { w with ready }) hr
  have hal := hand.aloof
  have hend := hand.ended
  set u := World.turn { w with ready } t
  have ha := h.awaits hmove
  have awaits : u.Awaits L := hal.awaits hmove ⟨ha.waiter, ha.turn⟩
  obtain ⟨x, hx, hdr⟩ := h.drives
  refine ⟨hal.poised hp, ⟨x, hal.main x hx, hdr⟩, h.path, h.load, h.deadline, ?_⟩
  have unended (hs : u.ended? L = none) : w.ended? L = none := by
    rcases hend with h1 | ⟨-, h1⟩
    · exact h1 ▸ hs
    · simp [hs] at h1
  refine h.duty.idle hmove awaits (fun due htm hg hun hea => ?_) fun hnow hrL hdo hre hca hun hea => ?_
  · exact .watching awaits (hal.timers.trans htm) hg
      (fun hs => (hun (unended hs)).snoc fun _ => unended hs) (hea.snoc (by simp))
  · have hgiven : u.running ≠ some L ∧ (u.ended? L = none → t ≠ L) := by
      refine ⟨fun hrun => ?_, fun hs htL => ?_⟩
      · obtain ⟨rfl, hd⟩ := hand.running L hrun
        exact absurd (hdo.symm.trans hd) (by simp)
      · have := hand.doomed htL hdo
        simp [hs] at this
    refine .stopping awaits (hal.now.trans hnow) hgiven.1 (hal.doomed hdo) (fun hs => ?_)
      (fun how hh => ?_) (hun.snoc fun hlt => by omega) (hea.snoc (by simp))
    · have hm : L ∈ t :: ready := hq ▸ hre (unended hs)
      exact hal.ready L (List.mem_of_ne_of_mem (hgiven.2 hs).symm hm)
    · rcases hend with h1 | ⟨-, h1⟩
      · exact hca how ((show u.ended? L = w.ended? L from h1) ▸ hh)
      · exact (Option.some.inj (h1.symm.trans hh)).symm

/-- Those who stood back are ready again. -/
theorem yielded (h : AtWork su p L t₀ below acts w d phase) (hr : w.running = none) :
    AtWork su p L t₀ below (acts ++ [⟨none, w, w.wakeYielding.beginRound⟩]) w.wakeYielding.beginRound d phase := by
  have hmove : w.running ≠ some 0 := by simp [hr]
  have hal : Aloof L w w.wakeYielding := .wakeYielding w
  have hcore := core_wakeYielding w
  have hend : w.wakeYielding.ended? L = w.ended? L := by rw [ended?_core, ended?_core, hcore]
  have hb := World.begun L h.poised.load_ne ((congrArg Core.running hcore).trans hr)
  set u := w.wakeYielding.beginRound
  have hue : u.ended? L = w.ended? L := hb.ended.trans hend
  have ha := h.awaits hmove
  have awaits : u.Awaits L := hb.awaits (hal.waiter ha.waiter) fun hs => hal.mainReady (ha.turn hmove (hend ▸ hs))
  obtain ⟨x, hx, hdr⟩ := h.drives
  refine ⟨hb.poised (hal.poised h.poised), ⟨x, hb.task.trans (hal.main x hx), hdr⟩, h.path, h.load,
    h.deadline, ?_⟩
  refine h.duty.idle hmove awaits (fun due htm hg hun hea => ?_) fun hnow hrL hdo hre hca hun hea => ?_
  · exact .watching awaits (hb.timers.trans (hal.timers.trans htm)) hg
      (fun hs => (hun (hue ▸ hs)).snoc fun _ => hue ▸ hs) (hea.snoc (by simp))
  · exact .stopping awaits (hb.now.trans (hal.now.trans hnow)) hb.running
      (hb.doomed ▸ hal.doomed hdo) (fun hs => hb.ready ▸ hal.ready L (hre (hue ▸ hs)))
      (fun how hh => hca how (hue ▸ hh)) (hun.snoc fun hlt => by omega) (hea.snoc (by simp))

/-- The clock moves on. It does so only while the load is under way, and not past the next look. -/
theorem advanced {due : Nat} (h : AtWork su p L t₀ below acts w d phase) (hr : w.running = none)
    (hq : w.ready = []) (hm : w.mainReady = false) (hdue : w.nextDue = some due) :
    AtWork su p L t₀ below (acts ++ [⟨none, w, (w.advanceTo due).beginRound⟩]) (w.advanceTo due).beginRound
      d phase := by
  have hmove : w.running ≠ some 0 := by simp [hr]
  have hadv := World.advanced L w due
  have hcore := (later_advanceTo w due).core
  have hend : (w.advanceTo due).ended? L = w.ended? L := by rw [ended?_core, ended?_core, hcore]
  have hb := World.begun L h.poised.load_ne ((running_advanceTo w due).trans hr)
  set v := w.advanceTo due
  set u := v.beginRound
  have hue : u.ended? L = w.ended? L := hb.ended.trans hend
  have ha := h.awaits hmove
  have he : w.ended? L = none := by
    by_contra hne
    have := ha.turn hmove (Option.ne_none_iff_isSome.1 hne)
    simp [hm] at this
  have awaits : u.Awaits L := hb.awaits (hadv.waiter ▸ ha.waiter) fun hs => by simp [hend, he] at hs
  obtain ⟨x, hx, hdr⟩ := h.drives
  refine ⟨hb.poised (hadv.poised h.poised), ⟨x, hb.task.trans (hadv.main ▸ hx), hdr⟩, h.path, h.load,
    h.deadline, ?_⟩
  refine h.duty.idle hmove awaits (fun next htm hg hun hea => ?_) fun _ _ _ hre _ _ _ => ?_
  · have hun' : Unended L (su.lastLook t₀) (acts ++ [⟨none, w, u⟩]) := (hun he).snoc fun _ => he
    have hea' : Early L (su.lastLook t₀) (acts ++ [⟨none, w, u⟩]) := hea.snoc (by simp)
    have hmem := mem_timers htm
    have hle : due ≤ next := (List.min?_eq_some_iff.1 hdue).2 next
      (List.mem_append_left _ (List.mem_map.2 ⟨(next, 0), hmem, rfl⟩))
    have hnow := h.poised.timers _ hmem
    have htv : u.mainTimers = [(next, 0)].filter (due < ·.1) := by rw [hb.timers, hadv.timers, htm]
    by_cases hlt : due < next
    · exact .watching awaits (by rw [htv]; simp [hlt]) hg (fun _ => hun') hea'
    · obtain rfl : due = next := by omega
      have hru : u.running = some 0 := hb.turn (hadv.turn (due, 0) hmem le_rfl rfl)
      have hun0 : u.now = due := by
        rw [hb.now, hadv.now]
        exact max_eq_right hnow.le
      have hdu : Duty su L t₀ (acts ++ [⟨none, w, u⟩]) u (.watch u.now) :=
        .due hru awaits.waiter (by rw [htv]; simp) (hue.trans he) (hun0 ▸ hg) hun' hea'
      rwa [hun0] at hdu
  · have hready := hre he
    simp [hq] at hready

/-- One step of the machine. -/
theorem step (h : AtWork su p L t₀ below acts w d phase) (hp : 1 ≤ su.driver.pollIntervalMs)
    (hs : w.step? su = some w') : Onto su p L t₀ below (acts ++ [⟨w.running, w, w'⟩]) w' phase := by
  have on {u : World} {e : Drive} (hu : AtWork su p L t₀ below (acts ++ [⟨w.running, w, u⟩]) u e phase) :
      Onto su p L t₀ below (acts ++ [⟨w.running, w, u⟩]) u phase := .inl ⟨e, phase, hu, .inl⟩
  unfold step? at hs
  split at hs
  next t hr =>
    obtain rfl := Option.some.inj hs
    rw [hr]
    by_cases ht : t = 0
    · subst ht
      exact h.turn hp hr
    · exact hr ▸ on (hr ▸ h.other hr ht)
  next hr =>
    rw [hr] at on ⊢
    split at hs
    next t ready hq =>
      obtain rfl := Option.some.inj hs
      exact on (h.handed hr hq)
    next hq =>
      obtain ⟨v, hv, rfl⟩ := Option.map_eq_some_iff.1 hs
      split_ifs at hv with hy
      · obtain rfl := Option.some.inj hv
        exact on (h.yielded hr)
      · obtain ⟨due, hdue, rfl⟩ := Option.map_eq_some_iff.1 hv
        exact on (h.advanced hr hq (by simp at hy; exact hy.1) hdue)

end AtWork

end PageTest
