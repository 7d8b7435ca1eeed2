import PageTest.Proofs.Forward.Waits

/-! A frame navigates, and a task waits for it to load and to be shown. While the main task waits, that task and the
one that fires the signals take turns. -/

namespace PageTest.World

variable {su : Setup} {w w' : World} {main x : Task} {t u i l due h : Nat} {d : Desk} {st below : List Frame}

/-- The first task that waits for the listener. -/
theorem findIdx?_awaits (hx : w.task? t = some x) (hl : awaits l x = true)
    (ho : ∀ i y, i < t → w.task? i = some y → awaits l y = false) : w.tasks.findIdx? (awaits l) = some t := by
  obtain ⟨hlt, hx⟩ := List.getElem?_eq_some_iff.1 hx
  refine List.findIdx?_eq_some_iff_getElem.2 ⟨hlt, hx ▸ hl, fun j hj => ?_⟩
  rw [ho j _ hj (List.getElem?_eq_getElem (by omega))]
  exact Bool.false_ne_true

/-- The main task drives a load, which is the only other task. -/
structure Sole (w : World) (main : Task) (t : Nat) : Prop where
  driver : w.task? 0 = some main
  drives : ∃ d phase below, main.stack = .drive d phase :: below
  ne : t ≠ 0
  load : ∃ x, w.task? t = some x ∧ x.ended = none ∧ x.cancelled = false ∧ x.waiter = some 0
  others : ∀ i x, i ≠ 0 → i ≠ t → w.task? i = some x → x.stack = []

theorem Sole.free (hw : w.Sole main t) : w.Free t := by
  obtain ⟨x, hx, he, hc, -⟩ := hw.load
  exact ⟨x, hx, he, hc⟩

theorem Sole.engaged (hw : w.Sole main t) (hh : w.Hushed due) : w.Engaged t := hw.free.engaged hh.busy

/-- The load waits in the middle of something, and there is one more task. -/
structure Pair (w : World) (main : Task) (t u : Nat) (st : List Frame) : Prop where
  driver : w.task? 0 = some main
  drives : ∃ d phase below, main.stack = .drive d phase :: below
  ne : t ≠ 0
  lt : t < u
  load : ∃ x, w.task? t = some x ∧ x.stack = st ∧ x.returned = none ∧ x.ended = none ∧ x.cancelled = false ∧
    x.waiter = some 0
  second : ∃ x, w.task? u = some x ∧ x.ended = none ∧ x.cancelled = false ∧ x.waiter = none
  others : ∀ i x, i ≠ 0 → i ≠ t → i ≠ u → w.task? i = some x → x.stack = []

namespace Pair

theorem congr (hp : w.Pair main t u st) (ht : w'.tasks = w.tasks) : w'.Pair main t u st := by
  have hq (i : Nat) : w'.task? i = w.task? i := by rw [task?, ht, task?]
  refine ⟨(hq 0).trans hp.driver, hp.drives, hp.ne, hp.lt, ?_, ?_, fun i x h0 h1 h2 hx => ?_⟩
  · exact (hq t).symm ▸ hp.load
  · exact (hq u).symm ▸ hp.second
  · exact hp.others i x h0 h1 h2 ((hq i).symm.trans hx)

theorem busy (hp : w.Pair main t u st) : w.Busy := by
  obtain ⟨d, phase, below, hs⟩ := hp.drives
  exact ⟨main, hp.driver, by simp [hs]⟩

theorem second_ne (hp : w.Pair main t u st) : u ≠ 0 := by
  have := hp.lt
  omega

theorem free_load (hp : w.Pair main t u st) : w.Free t := by
  obtain ⟨x, hx, -, -, he, hc, -⟩ := hp.load
  exact ⟨x, hx, he, hc⟩

theorem free_second (hp : w.Pair main t u st) : w.Free u := by
  obtain ⟨x, hx, he, hc, -⟩ := hp.second
  exact ⟨x, hx, he, hc⟩

/-- The load waits in the middle of something else. -/
theorem park_load (hp : w.Pair main t u st) (st' : List Frame) : (w.parked t st' none).Pair main t u st' := by
  obtain ⟨x, hx, -, -, he, hc, hwait⟩ := hp.load
  obtain ⟨y, hy, hsecond⟩ := hp.second
  have hne : u ≠ t := (ne_of_lt hp.lt).symm
  refine ⟨(task?_parked_other hp.ne.symm w st' none).trans hp.driver, hp.drives, hp.ne, hp.lt,
    ⟨_, task?_parked hx st' none, rfl, rfl, he, hc, hwait⟩,
    ⟨y, (task?_parked_other hne w st' none).trans hy, hsecond⟩, fun i z h0 ht hu hz => ?_⟩
  exact hp.others i z h0 ht hu ((task?_parked_other ht w st' none).symm.trans hz)

/-- The other task is in the middle of something. -/
theorem park_second (hp : w.Pair main t u st) (st' : List Frame) (ret : Option Outcome) :
    (w.parked u st' ret).Pair main t u st := by
  obtain ⟨x, hx, hload⟩ := hp.load
  obtain ⟨y, hy, hsecond⟩ := hp.second
  have hne : t ≠ u := ne_of_lt hp.lt
  refine ⟨(task?_parked_other hp.second_ne.symm w st' ret).trans hp.driver, hp.drives, hp.ne, hp.lt,
    ⟨x, (task?_parked_other hne w st' ret).trans hx, hload⟩, ⟨_, task?_parked hy st' ret, hsecond⟩,
    fun i z h0 ht hu hz => ?_⟩
  exact hp.others i z h0 ht hu ((task?_parked_other hu w st' ret).symm.trans hz)

/-- The load is the one that a signal wakes. -/
theorem findIdx? {loaded : Bool} (hp : w.Pair main t u (.waitLoad loaded (some l) :: below)) :
    w.tasks.findIdx? (awaits l) = some t := by
  obtain ⟨x, hx, hs, -⟩ := hp.load
  obtain ⟨d, phase, st, hmain⟩ := hp.drives
  refine findIdx?_awaits hx (by simp [awaits, hs]) fun i y hi hy => ?_
  by_cases h0 : i = 0
  · subst h0
    obtain rfl := Option.some.inj (hp.driver.symm.trans hy)
    simp [awaits, hmain]
  · have := hp.lt
    simp [awaits, hp.others i y h0 (by omega) (by omega) hy]

end Pair

/-- The load starts to wait for the page, and the task that navigates has its turn. -/
theorem Sole.starts (hw : w.Sole main t) (hh : w.Hushed due) (hdeaf : su.deaf = false) (d : Desk) (found : List Nat)
    (cur : Option Step) (steps : List Step) (below : List Frame) :
    ∃ w' : World, w'.Pair main t w.tasks.length (.waitLoad false (some d.page.listeners.length) ::
        .steps .hidden found (some .waitLoad) steps :: below) ∧ w'.Hushed due ∧
      ((w.start navigation).2.working t d (.steps .hidden found cur (.waitLoad :: steps) :: below) none).Leads su
        (w'.working w.tasks.length { d.turnTo (d.page.listen .frame "load").2 with allowance := fullAllowance }
          navigation none) := by
  obtain ⟨x, hx, he, hc, hwait⟩ := hw.load
  set v := (w.start navigation).2
  have hnew : v.task? w.tasks.length = some (.start navigation) := task?_started w navigation
  have hmain : v.task? 0 = some main := task?_start hw.driver navigation
  have hload : v.task? t = some x := task?_start hx navigation
  have hlt : t < w.tasks.length := (List.getElem?_eq_some_iff.1 hx).1
  have hne : w.tasks.length ≠ t := hlt.ne'
  have hbusy : v.Busy := by
    obtain ⟨d, phase, st, hs⟩ := hw.drives
    exact ⟨main, hmain, by simp [hs]⟩
  set st := Frame.waitLoad false (some d.page.listeners.length) :: .steps .hidden found (some .waitLoad) steps :: below
  have hpair : (v.parked t st none).Pair main t w.tasks.length st := by
    refine ⟨(task?_parked_other hw.ne.symm v st none).trans hmain, hw.drives, hw.ne, hlt,
      ⟨_, task?_parked hload st none, rfl, rfl, he, hc, hwait⟩,
      ⟨.start navigation, (task?_parked_other hne v st none).trans hnew, rfl, rfl, rfl⟩, fun i y h0 ht hu hy => ?_⟩
    rw [task?_parked_other ht] at hy
    exact hw.others i y h0 ht (task?_of_start hu hy)
  have hready : (v.parked t st none).ready = [w.tasks.length] := ready_start hh.ready navigation
  have hfree : v.Free t := ⟨x, hload, he, hc⟩
  refine ⟨{ v.parked t st none with ready := [] }, ?_, ?_,
    ((hfree.engaged hbusy).begins fun _ => rfl).trans ((hfree.listens hbusy hdeaf false).trans ?_)⟩
  · exact hpair.congr rfl
  · exact ⟨hpair.busy, rfl, hh.mainReady, hh.yielding, hh.alarm, hh.timers, hh.notices⟩
  · exact leads_turn hpair.busy hready ((task?_parked_other hne v st none).trans hnew) rfl rfl

namespace Pair

/-- The signal that the page is loaded: the load hears it and starts to wait for the next one. -/
theorem loaded {p : Page Action} {ms : Nat} (hp : w.Pair main t u (.waitLoad false (some l) :: below))
    (hh : w.Hushed due) (hdeaf : su.deaf = false)
    (hfire : d.page.fire .frame "load" = ([l], p)) (hl : p.listenerState l = some .fired) (hms : ms ≠ 0)
    (hlate : d.now + ms < due) (cur : Option Step) (steps : List Step) :
    ∃ w' : World, w'.Pair main t u (.waitLoad true (some p.listeners.length) :: below) ∧ w'.Hushed due ∧
      (w.working u d [.steps .hidden [] cur (.page (.fire .frame "load") :: .sleep ms :: steps)] none).Leads su
        (w'.working u
          { d.write [⟨.info, "Frame loaded, waiting for pageshow"⟩] with
            now := d.now + ms, page := (p.listen .window "pageshow").2, allowance := fullAllowance - 1 }
          [.steps .hidden [] none steps] none) := by
  have hu := hp.second_ne
  set e := d.now + ms
  set st : List Frame := [.pause e, .steps .hidden [] (some (.sleep ms)) steps]
  set w₁ : World := { w with ready := [t] }
  set w₂ : World := World.parked { w₁ with timers := [(due, 0), (e, u)] } u st none
  set w₃ : World := { w₂ with ready := [] }
  set w₄ : World := w₃.parked t (.waitLoad true (some p.listeners.length) :: below) none
  have hp₁ : w₁.Pair main t u (.waitLoad false (some l) :: below) := hp.congr rfl
  have hp₂ : w₂.Pair main t u (.waitLoad false (some l) :: below) :=
    park_second (w := { w₁ with timers := [(due, 0), (e, u)] }) (hp₁.congr rfl) st none
  have hp₃ : w₃.Pair main t u (.waitLoad false (some l) :: below) := hp₂.congr rfl
  have hp₄ : w₄.Pair main t u (.waitLoad true (some p.listeners.length) :: below) := hp₃.park_load _
  have hfires : (w.working u d [.steps .hidden [] cur (.page (.fire .frame "load") :: .sleep ms :: steps)] none).Leads su
      (w₁.working u (d.turnTo p) [.steps .hidden [] none (.sleep ms :: steps)] none) :=
    hp.free_second.fires hp.busy hh.notices hp.ne hh.ready hfire fun _ => (hp.park_second _ _).findIdx?
  have hsleeps : (w₁.working u (d.turnTo p) [.steps .hidden [] none (.sleep ms :: steps)] none).Leads su
      (w₂.idle (d.turnTo p)) :=
    ((hp₁.free_second.engaged hp₁.busy).begins fun _ => rfl).trans
      ((hp₁.free_second.engaged hp₁.busy).sleeps hp₁.free_second hu hh.timers hms)
  -- The other one sleeps, and the load has been woken by the signal.
  have hturn : (w₂.idle (d.turnTo p)).Leads su (w₃.working t { d.turnTo p with allowance := fullAllowance }
      (.waitLoad false (some l) :: below) none) := by
    obtain ⟨x, hx, hs, hret, he, hc, -⟩ := hp₂.load
    rw [← hs, ← hret]
    exact leads_turn hp₂.busy rfl hx he hc
  -- Nobody is ready any more.
  have hh₄ : World.Hushed { w₄ with timers := [(due, 0)] } due :=
    ⟨hp₄.busy, rfl, hh.mainReady, hh.yielding, hh.alarm, rfl, hh.notices⟩
  obtain ⟨y, hy, he, hc, -⟩ := hp₁.second
  have hy₄ : w₄.task? u = some { y with stack := st, returned := none } :=
    (task?_parked_other (ne_of_lt hp.lt).symm w₃ _ _).trans
      (task?_parked (w := { w₁ with timers := [(due, 0), (e, u)] }) hy st none)
  set d₄ : Desk := { d.write [⟨.info, "Frame loaded, waiting for pageshow"⟩] with
    page := (p.listen .window "pageshow").2, allowance := fullAllowance - 1 }
  have hhears : (w₃.working t { d.turnTo p with allowance := fullAllowance }
      (.waitLoad false (some l) :: below) none).Leads su (w₄.idle d₄) :=
    (hp₃.free_load.hearsLoad hp₃.busy hl).trans (hp₃.free_load.listens hp₃.busy hdeaf true)
  have hawake : (w₄.idle d₄).Leads su (World.working { w₄ with timers := [(due, 0)] } u { d₄ with now := e }
      [.steps .hidden [] (some (.sleep ms)) steps] (some (.value .done))) :=
    leads_awake hh₄ rfl hy₄ he hc rfl rfl hu (Nat.le_add_right d.now ms) hlate
  have hpair : World.Pair { w₄ with timers := [(due, 0)] } main t u _ := hp₄.congr rfl
  exact ⟨{ w₄ with timers := [(due, 0)] }, hpair, hh₄, hfires.trans (hsleeps.trans (hturn.trans (hhears.trans
    (hawake.trans (hpair.free_second.engaged hpair.busy).resumes))))⟩

/-- The signal that the page is shown: the other task ends, and the load goes on. -/
theorem shown {p : Page Action} (hp : w.Pair main t u (.waitLoad true (some l) :: below)) (hh : w.Hushed due)
    (hfire : d.page.fire .window "pageshow" = ([l], p)) (hl : p.listenerState l = some .fired) (su : Setup)
    (cur : Option Step) :
    ∃ w' : World, w'.Sole main t ∧ w'.Hushed due ∧
      (w.working u d [.steps .hidden [] cur [.page (.fire .window "pageshow")]] none).Leads su
        (w'.working t { d.write [⟨.info, "Page shown"⟩] with page := p, allowance := fullAllowance - 1 } below
          (some (.value .done))) := by
  have hu := hp.second_ne
  set w₁ : World := { w with ready := [t] }
  set w₂ : World := w₁.finished u .done
  set w₃ : World := { w₂ with ready := [] }
  have hp₁ : w₁.Pair main t u (.waitLoad true (some l) :: below) := hp.congr rfl
  obtain ⟨x, hx, hs, hret, he, hc, hwait⟩ := hp₁.load
  obtain ⟨y, hy, -, -, hnobody⟩ := hp₁.second
  have hother (i : Nat) (hi : i ≠ u) : w₃.task? i = w₁.task? i := task?_finished_other hi w₁ .done
  have hended : w₃.task? u = some { y with stack := [], returned := none, ended := some .done } :=
    task?_finished hy .done
  have hne : t ≠ u := ne_of_lt hp.lt
  have hsole : w₃.Sole main t := by
    refine ⟨(hother 0 hu.symm).trans hp₁.driver, hp.drives, hp.ne, ⟨x, (hother t hne).trans hx, he, hc, hwait⟩,
      fun i z h0 ht hz => ?_⟩
    by_cases hi : i = u
    · subst hi
      obtain rfl := Option.some.inj (hended.symm.trans hz)
      rfl
    · exact hp₁.others i z h0 ht hi ((hother i hi).symm.trans hz)
  have hbusy : w₃.Busy := by
    obtain ⟨d, phase, st, hs⟩ := hp.drives
    exact ⟨main, hsole.driver, by simp [hs]⟩
  have hfires : (w.working u d [.steps .hidden [] cur [.page (.fire .window "pageshow")]] none).Leads su
      (w₁.working u (d.turnTo p) [.steps .hidden [] none []] none) :=
    hp.free_second.fires hp.busy hh.notices hp.ne hh.ready hfire fun _ => (hp.park_second _ _).findIdx?
  have hends : (w₁.working u (d.turnTo p) [.steps .hidden [] none []] none).Leads su (w₂.idle (d.turnTo p)) := by
    have hend : (w₁.working u (d.turnTo p) [] (some (.value .done))).Leads su
        (((w₁.finished u .done).wake? y.waiter).idle (d.turnTo p)) :=
      leads_end (hp₁.free_second.engaged hp₁.busy) hu hy
    rw [hnobody] at hend
    exact (hp₁.free_second.engaged hp₁.busy).finishes.trans hend
  have hturn : (w₂.idle (d.turnTo p)).Leads su (w₃.working t { d.turnTo p with allowance := fullAllowance }
      (.waitLoad true (some l) :: below) none) := by
    rw [← hs, ← hret]
    exact leads_turn hbusy rfl ((hother t hne).trans hx) he hc
  have hfree : w₃.Free t := ⟨x, (hother t hne).trans hx, he, hc⟩
  exact ⟨w₃, hsole, ⟨hbusy, rfl, hh.mainReady, hh.yielding, hh.alarm, hh.timers, hh.notices⟩,
    hfires.trans (hends.trans (hturn.trans (hfree.hearsShow hbusy hl)))⟩

end Pair

/-- A task is started while another one has its turn. -/
theorem start_working (hx : w.task? t = some x) (d : Desk) (st stack : List Frame) (ret : Option Outcome) :
    ((w.working t d st ret).start stack).2 = (w.start stack).2.working t d st ret := by
  have hlt : t < w.tasks.length := (List.getElem?_eq_some_iff.1 hx).1
  have htasks : (w.tasks ++ [Task.start stack]).modify t (fun x => { x with stack := st, returned := ret }) =
      w.tasks.modify t (fun x => { x with stack := st, returned := ret }) ++ [Task.start stack] := by
    refine List.ext_getElem? fun j => ?_
    rcases Nat.lt_trichotomy j w.tasks.length with hj | rfl | hj
    · rw [List.getElem?_append_left (by simpa using hj), List.getElem?_modify, List.getElem?_modify,
        List.getElem?_append_left hj]
    · simp [hlt.ne]
    · simp [hj]
  simp only [start, working, idle, parked, modifyTask, htasks, List.length_modify]

/-- A click on what has the frame navigate. -/
theorem Sole.clicks {p : Page Action} {found : List Nat} {cur : Option Step} {steps : List Step}
    (hw : w.Sole main t) (hb : w.Busy) (hn : w.scene.notices = []) (hf : found[i]? = some h)
    (hclick : ∀ sc : Scene, sc.page = d.page → sc.click d.now su.nesting h =
      ({ sc with page := p, notices := sc.notices ++ [.navigated] }, .value .done)) :
    (w.working t d (.steps .hidden found cur (.click (.found i) :: steps) :: below) none).Leads su
      ((w.start navigation).2.working t (d.turnTo p) (.steps .hidden found none steps :: below) none) := by
  obtain ⟨x, hx, -⟩ := hw.load
  refine Engaged.goOn ⟨⟨x, hx⟩, fun _ => hb⟩ ?_
  set st := Frame.steps .hidden found cur (.click (.found i) :: steps) :: below
  have hclick' := hclick (w.working t d st none).scene rfl
  rw [show (w.working t d st none).scene.notices = [] from hn] at hclick'
  have htell : (w.working t d st none).withScene { (w.working t d st none).scene with page := p, notices := [.navigated] } =
      (w.start navigation).2.working t (d.turnTo p) st none := by
    have hs : ({ w.scene with page := p, notices := [] } : Scene) = { w.scene with page := p } := by rw [← hn]
    have hstart := start_working hx (d.turnTo p) st navigation none
    rw [← hstart]
    show (World.start { w.working t d st none with scene := { w.scene with page := p, notices := [] } } navigation).2 = _
    rw [hs]
    rfl
  show Frame.runSteps su (w.working t d st none) .hidden found (.click (.found i) :: steps) = _
  rw [Frame.runSteps, World.begin, input]
  simp only [place, hf, Option.getD_some]
  rw [show (w.working t d st none).now = d.now from rfl, hclick']
  simp only [List.nil_append, htell]
  rfl

/-- A test has a frame navigate and waits for it: the frame is loaded after a while, and then shown. -/
theorem Sole.navigates {p : Page Action} {found : List Nat} (hw : w.Sole main t) (hh : w.Hushed due)
    (hdeaf : su.deaf = false) (hf : found[i]? = some h)
    (hclick : ∀ sc : Scene, sc.page = d.page → sc.click d.now su.nesting h =
      ({ sc with page := p, notices := sc.notices ++ [.navigated] }, .value .done))
    (hp : ∀ l ∈ p.listeners, l.state ≠ .waiting) (hlate : d.now + 25 < due)
    (cur : Option Step) (steps : List Step) (below : List Frame) :
    ∃ w' : World, w'.Sole main t ∧ w'.Hushed due ∧
      (w.working t d (.steps .hidden found cur (.click (.found i) :: .waitLoad :: steps) :: below) none).Leads su
        (w'.working t
          { (d.write [⟨.info, "Frame loaded, waiting for pageshow"⟩]).write [⟨.info, "Page shown"⟩] with
            now := d.now + 20 + 5, page := (p.heard .frame "load").heard .window "pageshow"
            allowance := fullAllowance - 1 }
          (.steps .hidden found none steps :: below) none) := by
  set q := p.heard .frame "load"
  set d₁ := d.turnTo p
  obtain ⟨w₁, hp₁, hh₁, hstarts⟩ := hw.starts hh hdeaf d₁ found none steps below
  have hu := hp₁.second_ne
  -- The other task sleeps before it fires the first signal.
  have hsleeps : (w₁.working w.tasks.length { d₁.turnTo (p.listen .frame "load").2 with allowance := fullAllowance }
      navigation none).Leads su (w₁.working w.tasks.length
        { d with now := d.now + 20, page := (p.listen .frame "load").2, allowance := fullAllowance - 1 }
        [.steps .hidden [] none [.page (.fire .frame "load"), .sleep 5, .page (.fire .window "pageshow")]] none) :=
    ((hp₁.free_second.engaged hp₁.busy).begins fun _ => rfl).trans
      ((hh₁.sleeps hp₁.free_second hu (by decide) (by show d.now + 20 < due; omega)).trans
        (hp₁.free_second.engaged hp₁.busy).resumes)
  obtain ⟨w₂, hp₂, hh₂, hloaded⟩ := hp₁.loaded
    (d := { d with now := d.now + 20, page := (p.listen .frame "load").2, allowance := fullAllowance - 1 }) hh₁ hdeaf
    (Page.fire_listen hp .frame "load") (p.listenerState_heard .frame "load") (by decide : 5 ≠ 0)
    (by show d.now + 20 + 5 < due; omega) none [.page (.fire .window "pageshow")]
  obtain ⟨w₃, hw₃, hh₃, hshown⟩ := hp₂.shown
    (d := { d.write [⟨.info, "Frame loaded, waiting for pageshow"⟩] with
      now := d.now + 20 + 5, page := (q.listen .window "pageshow").2, allowance := fullAllowance - 1 }) hh₂
    (Page.fire_listen (Page.heard_over hp .frame "load") .window "pageshow") (q.listenerState_heard .window "pageshow")
    su none
  have hresumes : (w₃.working t
      { (d.write [⟨.info, "Frame loaded, waiting for pageshow"⟩]).write [⟨.info, "Page shown"⟩] with
      now := d.now + 20 + 5, page := q.heard .window "pageshow", allowance := fullAllowance - 1 }
      (.steps .hidden found (some .waitLoad) steps :: below) (some (.value .done))).Leads su (w₃.working t _
        (.steps .hidden found none steps :: below) none) :=
    (hw₃.engaged hh₃).resumes (s := .waitLoad) (r := .done)
  exact ⟨w₃, hw₃, hh₃, (hw.clicks hh.busy hh.notices hf hclick).trans
    (hstarts.trans (hsleeps.trans (hloaded.trans (hshown.trans hresumes))))⟩

end PageTest.World
