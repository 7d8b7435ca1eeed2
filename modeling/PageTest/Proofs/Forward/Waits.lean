import PageTest.Proofs.Forward.Bodies

/-! Waiting: a sleep, and the wait for a frame that navigates. -/

namespace PageTest

/-- The page after a signal that somebody listened for. -/
def Page.heard {α : Type} (p : Page α) (target : SignalTarget) (event : String) : Page α :=
  { p with listeners := p.listeners ++ [⟨target, event, .fired⟩] }

theorem Page.heard_over {α : Type} {p : Page α} (hp : ∀ l ∈ p.listeners, l.state ≠ .waiting) (target : SignalTarget)
    (event : String) : ∀ l ∈ (p.heard target event).listeners, l.state ≠ .waiting := by
  simpa [heard, or_imp, forall_and] using hp

theorem Page.listenerState_heard {α : Type} (p : Page α) (target : SignalTarget) (event : String) :
    (p.heard target event).listenerState p.listeners.length = some .fired := by
  simp [heard, listenerState]

theorem Page.fire_eq {α : Type} (p : Page α) (target : SignalTarget) (event : String) : p.fire target event =
    ((List.range p.listeners.length).filter fun i => p.listeners[i]?.any (isCalled target event),
      { p with listeners := p.listeners.map fun l =>
          if isCalled target event l then { l with state := .fired } else l }) := by
  refine Prod.ext (List.filter_congr fun i _ => ?_) rfl
  cases p.listeners[i]? <;> rfl

/-- A signal that only the last one who listened waits for. -/
theorem Page.fire_listen {α : Type} {p : Page α} (hp : ∀ l ∈ p.listeners, l.state ≠ .waiting) (target : SignalTarget)
    (event : String) : (p.listen target event).2.fire target event = ([p.listeners.length], p.heard target event) := by
  have hold : ∀ l ∈ p.listeners, isCalled target event l = false := fun l hl => by simp [isCalled, hp l hl]
  have hnew : isCalled target event ⟨target, event, .waiting⟩ = true := by simp [isCalled]
  have hmap : p.listeners.map (fun l => if isCalled target event l then { l with state := .fired } else l) =
      p.listeners := (List.map_congr_left (g := id) fun l hl => by simp [hold l hl]).trans (List.map_id _)
  have hnone : (List.range p.listeners.length).filter (fun i => (p.listeners ++
      [⟨target, event, .waiting⟩])[i]?.any (isCalled target event)) = [] := by
    refine List.filter_eq_nil_iff.2 fun i hi => ?_
    have hlt := List.mem_range.1 hi
    simp [List.getElem?_append_left hlt, hlt, hold _ (List.getElem_mem hlt)]
  rw [fire_eq]
  simp only [listen, List.length_append, List.length_singleton, List.range_succ, List.filter_append, hnone,
    List.map_append, hmap, heard]
  simp [hnew]

namespace World

/-- The main task waits until `due`, and nobody else is about to do anything. -/
structure Hushed (w : World) (due : Nat) : Prop where
  busy : w.Busy
  ready : w.ready = []
  mainReady : w.mainReady = false
  yielding : w.yielding = []
  alarm : w.alarm = none
  timers : w.timers = [(due, 0)]
  notices : w.scene.notices = []

/-- A task that may have a turn. -/
def Free (w : World) (t : Nat) : Prop := ∃ x, w.task? t = some x ∧ x.ended = none ∧ x.cancelled = false

variable {su : Setup} {w : World} {t u i due ms : Nat} {d : Desk} {below : List Frame} {r : Reply}
variable {st : List Frame} {ret : Option Outcome}

theorem Free.engaged (h : w.Free t) (hb : w.Busy) : w.Engaged t := by
  obtain ⟨x, hx, -⟩ := h
  exact ⟨⟨x, hx⟩, fun _ => hb⟩

theorem Free.parked (h : w.Free u) (t : Nat) (st : List Frame) (ret : Option Outcome) : (w.parked t st ret).Free u := by
  obtain ⟨x, hx, he, hc⟩ := h
  by_cases hu : u = t
  · subst hu
    exact ⟨_, task?_parked hx st ret, he, hc⟩
  · exact ⟨x, (task?_parked_other hu w st ret).trans hx, he, hc⟩

theorem Busy.parked (h : w.Busy) (ht : t ≠ 0) (st : List Frame) (ret : Option Outcome) : (w.parked t st ret).Busy := by
  obtain ⟨x, hx, hs⟩ := h
  exact ⟨x, (task?_parked_other (Ne.symm ht) w st ret).trans hx, hs⟩

/-! Sleeping -/

/-- A task goes to sleep. -/
theorem Engaged.sleeps (hw : w.Engaged t) (hf : w.Free t) (ht : t ≠ 0) (hti : w.timers = [(due, 0)]) (hms : ms ≠ 0) :
    (w.working t d (.sleep ms :: below) none).Leads su
      ((World.parked { w with timers := [(due, 0), (d.now + ms, t)] } t (.pause (d.now + ms) :: below) none).idle d) := by
  obtain ⟨x, hx, -, hc⟩ := hf
  refine hw.halt ?_ (by exact hx) hc
  have hset : (w.working t d (.sleep ms :: below) none).setTimer t (d.now + ms) =
      World.working { w with timers := [(due, 0), (d.now + ms, t)] } t d (.sleep ms :: below) none := by
    have hti' : w.timers.filter (·.2 ≠ t) ++ [(d.now + ms, t)] = [(due, 0), (d.now + ms, t)] := by
      simp [hti, ht.symm]
    rw [← hti']
    rfl
  show Frame.runSleep _ t ms = _
  rw [Frame.runSleep, if_neg hms]
  exact congrArg (·, Move.halt (.pause (d.now + ms))) hset

/-- The clock moves on to the end of a sleep, and the sleeper has its turn. -/
theorem leads_awake {x : Nat} {y : Task} (hw : Hushed { w with timers := [(due, 0)] } due)
    (hti : w.timers = [(due, 0), (x, t)]) (hy : w.task? t = some y) (he : y.ended = none) (hc : y.cancelled = false)
    (hs : y.stack = .pause x :: below) (hret : y.returned = none) (ht : t ≠ 0) (hnow : d.now ≤ x) (hlate : x < due) :
    (w.idle d).Leads su (World.working { w with timers := [(due, 0)] } t
      { d with now := x, allowance := fullAllowance - 1 } below (some (.value .done))) := by
  have hturn : (World.idle { w with timers := [(due, 0)], ready := [t] } { d with now := x }).Leads su
      (World.working { w with timers := [(due, 0)], ready := [] } t { d with now := x, allowance := fullAllowance }
        y.stack y.returned) :=
    leads_turn hw.busy rfl hy he hc
  have hengaged : Engaged { w with timers := [(due, 0)] } t := ⟨⟨y, hy⟩, fun _ => hw.busy⟩
  have hready : ({ w with timers := [(due, 0)], ready := [] } : World) = { w with timers := [(due, 0)] } := by
    rw [← show w.ready = [] from hw.ready]
  rw [hs, hret, hready] at hturn
  refine (leads_advance (w := w) hw.busy hw.ready hw.mainReady hw.yielding hw.alarm hti ht hnow hlate).trans
    (hturn.trans (hengaged.leave ?_))
  exact if_pos le_rfl

/-- A task that sleeps for less time than the main task waits goes on after that. -/
theorem Hushed.sleeps (hw : w.Hushed due) (hf : w.Free t) (ht : t ≠ 0) (hms : ms ≠ 0) (hlate : d.now + ms < due) :
    (w.working t d (.sleep ms :: below) none).Leads su (w.working t
      { d with now := d.now + ms, allowance := fullAllowance - 1 } below (some (.value .done))) := by
  refine ((hf.engaged hw.busy).sleeps hf ht hw.timers hms).trans ?_
  obtain ⟨y, hy, he, hc⟩ := hf
  have hw' : Hushed (World.parked { w with timers := [(due, 0)] } t (.pause (d.now + ms) :: below) none) due :=
    ⟨hw.busy.parked ht _ _, hw.ready, hw.mainReady, hw.yielding, hw.alarm, rfl, hw.notices⟩
  have hti : ({ w with timers := [(due, 0)] } : World) = w := by rw [← hw.timers]
  have hsame : ({ World.parked { w with timers := [(due, 0), (d.now + ms, t)] } t (.pause (d.now + ms) :: below)
      none with timers := [(due, 0)] } : World) = w.parked t (.pause (d.now + ms) :: below) none := by
    rw [← hti]
    rfl
  rw [← working_parked w t _ (.pause (d.now + ms) :: below) below none, ← hsame]
  exact leads_awake hw' rfl (task?_parked hy _ _) he hc rfl rfl ht (Nat.le_add_right _ _) hlate

/-! Signals -/

/-- What a task waits for that waits for the page to load and then to be shown. -/
def waitedFor : Bool → SignalTarget × String
  | false => (.frame, "load")
  | true => (.window, "pageshow")

/-- A task starts to listen. -/
theorem Free.listens (hf : w.Free t) (hb : w.Busy) (hdeaf : su.deaf = false) (loaded : Bool) :
    (w.working t d (.waitLoad loaded none :: below) none).Leads su
      ((w.parked t (.waitLoad loaded (some d.page.listeners.length) :: below) none).idle
        (d.turnTo (d.page.listen (waitedFor loaded).1 (waitedFor loaded).2).2)) := by
  have hw := hf.engaged hb
  obtain ⟨x, hx, -, hc⟩ := hf
  have hlisten : (w.working t d (.waitLoad loaded none :: below) none).Leads su
      (w.working t (d.turnTo (d.page.listen (waitedFor loaded).1 (waitedFor loaded).2).2)
        (.waitLoad loaded (some d.page.listeners.length) :: below) none) := by
    refine hw.goOn ?_
    show Frame.runWaitLoad su _ loaded none = _
    rw [Frame.runWaitLoad, if_neg (by simp [hdeaf])]
    cases loaded <;> rfl
  refine hlisten.trans (hw.halt ?_ hx hc)
  have hstate : (d.page.listen (waitedFor loaded).1 (waitedFor loaded).2).2.listenerState d.page.listeners.length ≠
      some .fired := by simp [Page.listen, Page.listenerState]
  show Frame.runWaitLoad su _ loaded (some _) = _
  rw [Frame.runWaitLoad]
  exact if_neg hstate

/-- The page is loaded, and the task starts to listen for it to be shown. -/
theorem Free.hearsLoad (hf : w.Free t) (hb : w.Busy) {l : Nat} (hl : d.page.listenerState l = some .fired) :
    (w.working t d (.waitLoad false (some l) :: below) none).Leads su
      (w.working t { d.write [⟨.info, "Frame loaded, waiting for pageshow"⟩] with allowance := d.allowance - 1 }
        (.waitLoad true none :: below) none) := by
  refine (hf.engaged hb).goOn ?_
  show Frame.runWaitLoad su _ false (some l) = _
  rw [Frame.runWaitLoad]
  exact if_pos hl

/-- The page is shown. -/
theorem Free.hearsShow (hf : w.Free t) (hb : w.Busy) {l : Nat} (hl : d.page.listenerState l = some .fired) :
    (w.working t d (.waitLoad true (some l) :: below) none).Leads su
      (w.working t { d.write [⟨.info, "Page shown"⟩] with allowance := d.allowance - 1 } below
        (some (.value .done))) := by
  refine (hf.engaged hb).leave ?_
  show Frame.runWaitLoad su _ true (some l) = _
  rw [Frame.runWaitLoad]
  exact if_pos hl

/-- A signal that completes the listener of another task, which is woken. -/
theorem Free.fires {target : SignalTarget} {event : String} {l : Nat} {p : Page Action} {cur : Option Step}
    {steps : List Step} (hf : w.Free t) (hb : w.Busy) (hn : w.scene.notices = []) (hu : u ≠ 0) (hr : w.ready = [])
    (hfire : d.page.fire target event = ([l], p))
    (hl : ∀ st, (w.parked t (.steps .hidden [] cur st :: below) none).tasks.findIdx? (awaits l) = some u) :
    (w.working t d (.steps .hidden [] cur (.page (.fire target event) :: steps) :: below) none).Leads su
      (World.working { w with ready := [u] } t (d.turnTo p) (.steps .hidden [] none steps :: below) none) := by
  refine (hf.engaged hb).goOn ?_
  set v := w.working t d (.steps .hidden [] cur (.page (.fire target event) :: steps) :: below) none with hv
  have hscene : v.scene.perform v.now su.nesting none (.fire target event) =
      ({ v.scene with page := p, notices := [.fired l] }, .value (.count 1)) := by
    unfold Scene.perform
    have hf' : v.scene.page.fire target event = ([l], p) := hfire
    have hn' : v.scene.notices = [] := hn
    simp [Scene.fire, hf', hn']
  have htell : v.withScene { v.scene with page := p, notices := [.fired l] } =
      World.working { w with ready := [u] } t (d.turnTo p)
        (.steps .hidden [] cur (.page (.fire target event) :: steps) :: below) none := by
    have hl' : v.tasks.findIdx? (awaits l) = some u := hl _
    have hr' : v.ready = [] := hr
    have hs : ({ w.scene with page := p, notices := [] } : Scene) = { w.scene with page := p } := by rw [← hn]
    show World.wake? { v with scene := { w.scene with page := p, notices := [] } } (v.tasks.findIdx? (awaits l)) = _
    rw [hl', hs, wake?, wake, if_neg hu, if_neg (by simp [hr'])]
    simp only [hr']
    rfl
  show Frame.runSteps su v .hidden [] (.page (.fire target event) :: steps) = _
  rw [Frame.runSteps, World.begin, hscene]
  simp only [htell]
  rfl

end World

end PageTest
