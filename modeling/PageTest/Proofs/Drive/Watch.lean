import PageTest.Proofs.Drive.Stage
import PageTest.Proofs.Report.Tally

/-! A driver watches a load. What it has drained and what still waits in the log are together what
waited at the start and what the load has written since; how far the driver has come tells what it
has seen of the load. -/

namespace PageTest

/-- A load has ended, and its driver, whose sleep was over as well, goes by the sleep. -/
def Setup.Overlooks (su : Setup) (L : Nat) (a : Activity) : Prop :=
  a.ended.isSome = true ∧ su.looksFirst L = true

/-- What holds where a driver stands. `stale` waited in the log when the driver began. -/
inductive Post (su : Setup) (D L : Nat) (p : String) (stale : List LogEntry) (d : Drive)
    (running : Option Nat) (now : Nat) (waiting : List LogEntry) (a : Activity) : DrivePhase → Prop
  | looking : running = some D → a.ended = none ∨ su.Overlooks L a → a.cancelled = false → endMarker p ∉ d.logs →
      Post su D L p stale d running now waiting a (.look false)
  | joined : running = some D → a.ended = some .done → a.cancelled = false → endMarker p ∉ d.logs →
      Post su D L p stale d running now waiting a (.look true)
  | watching (due : Nat) : a.cancelled = false → endMarker p ∉ d.logs → stale <+: d.logs →
      Post su D L p stale d running now waiting a (.watch due)
  | settling : a.cancelled = false → endMarker p ∈ d.logs → stale <+: d.logs →
      Post su D L p stale d running now waiting a .settling
  | stopping : a.cancelled = true ∨ su.Overlooks L a → running ≠ some L → waiting = [] → d.deadline ≤ now →
      endMarker p ∉ d.logs → Post su D L p stale d running now waiting a .stopping

/-- The driver in task `D` watches the load in task `L`, since the time `t₀`. -/
structure Watch (su : Setup) (c : Code) (p : String) (D L : Nat) (stale : List LogEntry) (t₀ : Nat)
    (below : List Frame) (acts : List Act) (w : World) (d : Drive) (phase : DrivePhase)
    (a : Activity) : Prop where
  stage : Stage su c p D L acts w a
  driver : ∃ x, w.core.tasks[D]? = some x ∧ x.stack = .drive d phase :: below ∧ x.returned = none
  path : d.path = p
  load : d.load = L
  start : d.start = t₀
  deadline : d.deadline = t₀ + su.driver.timeoutSecs * 1000
  logs : d.logs ++ w.log.waiting = stale ++ said L acts
  post : Post su D L p stale d w.running w.now w.log.waiting a phase

namespace World

/-- A task has more on its stack than the frames below its driver: the driver has not returned yet.
-/
def Driving (D : Nat) (below : List Frame) (w : World) : Prop :=
  ∃ x, w.core.tasks[D]? = some x ∧ below.length < x.stack.length

/-- A task has come back to the frames below its driver, with an outcome. -/
def Back (D : Nat) (below : List Frame) (o : Outcome) (w : World) : Prop :=
  ∃ x, w.core.tasks[D]? = some x ∧ x.stack = below ∧ x.returned = some o

section

variable {w : World} {D : Nat} {below : List Frame} {o o' : Outcome}

theorem Back.returned {x : Activity} (h : w.Back D below o) (hx : w.core.tasks[D]? = some x) :
    x.returned = some o := by
  obtain ⟨y, hy, -, hret⟩ := h
  obtain rfl := Option.some.inj (hx.symm.trans hy)
  exact hret

theorem Back.eq (h : w.Back D below o) (h' : w.Back D below o') : o = o' := by
  obtain ⟨x, hx, -, hret⟩ := h'
  exact Option.some.inj ((h.returned hx).symm.trans hret)

end

end World

/-- What a driver returns, and what holds then. -/
inductive Returned (su : Setup) (p : String) (L : Nat) (stale : List LogEntry) (t₀ : Nat)
    (acts : List Act) (w : World) (a : Activity) : Outcome → Prop
  | joined : a.ended = some .done → w.log.waiting = [] → Returned su p L stale t₀ acts w a
      (.value (.report (.ofLogs p (stale ++ said L acts) false (su.timeAt t₀) (w.now - t₀))))
  /-- The end marker was seen. What the load wrote after that is left in the log. -/
  | settled (logs : List LogEntry) : a.ended = some .done →
      logs ++ w.log.waiting = stale ++ said L acts → endMarker p ∈ logs → stale <+: logs →
      Returned su p L stale t₀ acts w a
        (.value (.report (.ofLogs p logs false (su.timeAt t₀) (w.now - t₀))))
  | stopped : a.ended.isSome = true → w.log.waiting = [] → endMarker p ∉ stale ++ said L acts →
      t₀ + su.driver.timeoutSecs * 1000 ≤ w.now → Returned su p L stale t₀ acts w a
        (.value (.report (.ofLogs p (stale ++ said L acts) true (su.timeAt t₀) (w.now - t₀))))
  | broken : a.ended = some .panicked → su.loader.panicOn = some p →
      Returned su p L stale t₀ acts w a (.fault .loadPanicked)

theorem Returned.ended {su : Setup} {p : String} {L t₀ : Nat} {stale : List LogEntry} {acts : List Act}
    {w : World} {a : Activity} {o : Outcome} (h : Returned su p L stale t₀ acts w a o) : a.ended.isSome = true := by
  cases h with
  | joined he => simp [he]
  | settled _ he => simp [he]
  | stopped he => exact he
  | broken he => simp [he]

/-- The driver has come back with an outcome. -/
structure Came (su : Setup) (c : Code) (p : String) (D L : Nat) (stale : List LogEntry) (t₀ : Nat)
    (below : List Frame) (acts : List Act) (w : World) (a : Activity) (o : Outcome) : Prop where
  stage : Stage su c p D L acts w a
  returned : Returned su p L stale t₀ acts w a o
  back : w.Back D below o
  turn : w.running = some D

/-- The driver has returned, or was given up. -/
inductive Left (su : Setup) (c : Code) (p : String) (D L : Nat) (stale : List LogEntry) (t₀ : Nat)
    (below : List Frame) (acts : List Act) (w : World) : Prop
  | returned {a : Activity} {o : Outcome} : Came su c p D L stale t₀ below acts w a o →
      Left su c p D L stale t₀ below acts w
  | gone {x : Activity} : w.core.tasks[D]? = some x → x.stack = [] → x.returned = none →
      Left su c p D L stale t₀ below acts w

/-- The driver is still at work, or has left. -/
def Watched (su : Setup) (c : Code) (p : String) (D L : Nat) (stale : List LogEntry) (t₀ : Nat)
    (below : List Frame) (acts : List Act) (w : World) : Prop :=
  (∃ d phase a, Watch su c p D L stale t₀ below acts w d phase a) ∨
    Left su c p D L stale t₀ below acts w

/-- What a move of a driver does before its stack is changed. -/
structure Glance (L : Nat) (a a' : Activity) (w v : World) : Prop where
  now : v.now = w.now
  registry : v.registry = w.registry
  lock : v.lock = w.lock
  running : v.running = w.running
  handles : v.handles = w.handles
  load : v.core.tasks[L]? = some a'
  same : a' = a ∨ a' = { a with cancelled := true }
  rest : ∀ i, i ≠ L → v.core.tasks[i]? = w.core.tasks[i]?

theorem LoadTask.how {su : Setup} {c : Code} {p : String} {s : Story} {a : Activity} {k : Core}
    {how : TaskReport} (h : LoadTask su c p s a k) (he : a.ended = some how) :
    how = .done ∨ (how = .cancelled ∧ a.cancelled = true) ∨
      (how = .panicked ∧ su.loader.panicOn = some p) := by
  cases h with
  | live _ he' => simp [he] at he'
  | left _ _ he' => simp [he] at he'
  | cancelled _ he' hc =>
    obtain rfl := Option.some.inj (he.symm.trans he')
    exact .inr (.inl ⟨rfl, hc⟩)
  | ended _ he' ho =>
    obtain rfl := Option.some.inj (he.symm.trans he')
    cases ho with
    | died hp => exact .inr (.inr ⟨rfl, hp⟩)
    | _ => exact .inl rfl

namespace Glance

variable {L : Nat} {a : Activity} {w v : World}

/-- Only the log and the task of the load are touched. -/
theorem of_core {l : Log} {ts : List Activity} {a' : Activity} (h : v.core = { w.core with log := l, tasks := ts })
    (hload : ts[L]? = some a') (hs : a' = a ∨ a' = { a with cancelled := true })
    (hrest : ∀ i, i ≠ L → ts[i]? = w.core.tasks[i]?) : Glance L a a' w v where
  now := (congrArg Core.now h :)
  registry := (congrArg Core.registry h :)
  lock := (congrArg Core.lock h :)
  running := (congrArg Core.running h :)
  handles := (congrArg Core.handles h :)
  load := by rw [h]; exact hload
  same := hs
  rest i hi := by rw [h]; exact hrest i hi

theorem still {l : Log} (ha : w.core.tasks[L]? = some a) (h : v.core = { w.core with log := l }) :
    Glance L a a w v := .of_core h ha (.inl rfl) fun _ _ => rfl

/-- The driver asks the load to end. -/
theorem ask {l : Log} (ha : w.core.tasks[L]? = some a) (he : a.ended = none)
    (h : v.core = { w.core with
      log := l
      tasks := w.core.tasks.modify L fun a =>
        if a.ended.isSome then a else { a with cancelled := true } }) :
    Glance L a { a with cancelled := true } w v :=
  .of_core h (by simp [ha, he]) (.inr rfl) fun i hi => by simp [hi.symm]

/-- To ask a load to end that has ended changes nothing. -/
theorem ask_ended {l : Log} (ha : w.core.tasks[L]? = some a) (he : a.ended.isSome = true)
    (h : v.core = { w.core with
      log := l
      tasks := w.core.tasks.modify L fun a =>
        if a.ended.isSome then a else { a with cancelled := true } }) :
    Glance L a a w v := by
  refine .still (l := l) ha (h.trans ?_)
  have hk : w.core.tasks.modify L (fun a => if a.ended.isSome then a else { a with cancelled := true }) =
      w.core.tasks.modify L id := World.modify_congr fun b hb => by
    obtain rfl := Option.some.inj (ha.symm.trans hb)
    exact if_pos he
  rw [hk, List.modify_id]

end Glance

theorem Backstage.overlooks {su : Setup} {c : Code} {p : String} {D L : Nat} {acts : List Act} {m : Option Nat}
    {w w' : World} {a a' : Activity} (h : Backstage su c p D L acts m w w' a a') (ho : su.Overlooks L a) :
    su.Overlooks L a' := ⟨by rw [h.ended ho.1]; exact ho.1, ho.2⟩

theorem World.ended?_core (w : World) (t : Nat) : w.ended? t = w.core.tasks[t]?.bind (·.ended) := by
  rw [getElem?_core, ended?]
  cases w.task? t <;> rfl

namespace Stage

variable {su : Setup} {c : Code} {p : String} {D L : Nat} {acts : List Act} {w w' v : World}
variable {a a' x : Activity}

/-- The driver moved, and was not given up. -/
theorem driver_move {below : List Frame} {m : Move} (h : Stage su c p D L acts w a)
    (hr : w.running = some D)
    (hx : w.core.tasks[D]? = some x) (hg : Glance L a a' w v)
    (hcore : w'.core = v.core.settle D below m)
    (hk : ¬ (m.waits = true ∧ x.cancelled = true)) :
    Stage su c p D L (acts ++ [⟨some D, w, w'⟩]) w' a' := by
  have hD : some D ≠ some L := by simpa using h.apart.symm
  have hxv : v.core.tasks[D]? = some x := by rw [hg.rest D h.apart.symm, hx]
  have hstory : story L (acts ++ [⟨some D, w, w'⟩]) = story L acts := by rw [story_snoc, if_neg hD]
  have hsaid := h.said_driver w'
  have hlock : w'.core.lock = w.core.lock := by
    rw [hcore, Core.settle_lock hxv, if_neg hk]
    exact hg.lock
  have hreg : w'.core.registry = w.core.registry := by
    rw [hcore, Core.settle_registry]
    exact hg.registry
  refine ⟨h.apart, h.main, by rw [hcore, Core.settle_other h.apart, hg.load],
    ?_, by rw [hstory, hsaid, h.told],
    fun i b hi hb => ?_, ?_, fun hr' => ?_⟩
  · rw [hstory]
    rcases hg.same with rfl | rfl
    · exact h.task.congr hlock hreg
    · exact h.task.ask hlock hreg
  · rw [hcore, Core.settle_other fun he => hi (.inl he), hg.rest i fun he => hi (.inr he)] at hb
    exact h.others i b hi hb
  · have : w'.core.handles = w.handles := by
      rw [hcore, Core.settle_handles]
      exact hg.handles
    rw [show w'.handles = w.handles from this]
    exact h.handles
  · have : w'.core.running = if m.waits then none else some D := by
      rw [hcore, Core.settle_running, show v.core.running = some D from hg.running.trans hr]
    rw [show w'.running = _ from this] at hr'
    split_ifs at hr'
    exact absurd hr' hD

end Stage

namespace Watch

variable {su : Setup} {c : Code} {p : String} {D L t₀ : Nat} {stale : List LogEntry}
variable {below : List Frame} {acts : List Act} {w w' v : World} {d d' : Drive}
variable {phase phase' : DrivePhase} {a a' : Activity}

theorem backstage {m : Option Nat} (h : Watch su c p D L stale t₀ below acts w d phase a)
    (hb : Backstage su c p D L acts m w w' a a') :
    Watch su c p D L stale t₀ below (acts ++ [⟨m, w, w'⟩]) w' d phase a' := by
  obtain ⟨x, hx, hs, hr⟩ := h.driver
  obtain ⟨x', hx', hs', hr'⟩ := hb.driver x hx
  obtain ⟨es, hl, hsaid, hes⟩ := hb.log
  refine ⟨hb.stage, ⟨x', hx', hs'.trans hs, hr'.trans hr⟩, h.path, h.load, h.start,
    h.deadline, ?_, ?_⟩
  · rw [hl, hsaid, ← List.append_assoc stale, ← h.logs]
    simp [Log.appendAll]
  · cases h.post with
    | looking hrun => exact absurd hrun hb.idle
    | joined hrun => exact absurd hrun hb.idle
    | watching due hc he hst => exact .watching due (hb.cancelled.trans hc) he hst
    | settling hc he hst => exact .settling (hb.cancelled.trans hc) he hst
    | stopping hc hrun hw hd he =>
      have hnil : es = [] := hes (hc.imp_right (·.1))
      refine .stopping (hc.imp hb.cancelled.trans hb.overlooks) (fun hr => ?_) ?_ (hd.trans hb.now) he
      · rcases hc with hc | hc
        · rcases hb.turn hr with h1 | h1
          · exact hrun h1
          · simp [hc] at h1
        · have hended : a'.ended.isSome = true := (hb.overlooks hc).1
          simp [(hb.stage.turn hr).1] at hended
      · rw [hl, hnil]
        simpa [Log.appendAll] using hw

theorem ended_load (h : Watch su c p D L stale t₀ below acts w d phase a) :
    w.ended? d.load = a.ended := by
  rw [World.ended?_core, h.load, h.stage.load]
  rfl

theorem still (h : Watch su c p D L stale t₀ below acts w d phase a) {v : World}
    (hv : v.core = w.core) : Glance L a a w v := .still (l := w.log) h.stage.load (by rw [hv]; rfl)

theorem panicked {how : TaskReport} (h : Watch su c p D L stale t₀ below acts w d phase a)
    (he : a.ended = some how) (hd : how ≠ .done) (hc : how = .cancelled → a.cancelled = false) :
    how = .panicked ∧ su.loader.panicOn = some p := by
  rcases h.stage.task.how he with h1 | ⟨h1, h2⟩ | h1
  · exact absurd h1 hd
  · simp [hc h1] at h2
  · exact h1

/-- What is the same for all moves after which the driver goes on. -/
structure Onward (d d' : Drive) (w v : World) : Prop where
  path : d'.path = d.path
  load : d'.load = d.load
  start : d'.start = d.start
  deadline : d'.deadline = d.deadline
  logs : d'.logs ++ v.log.waiting = d.logs ++ w.log.waiting

theorem Onward.same (h : v.core = w.core) : Onward d d w v :=
  ⟨rfl, rfl, rfl, rfl, by rw [show v.log = w.log from congrArg Core.log h]⟩

/-- The driver goes on. -/
theorem goes_on {m : Move} {x : Activity} (h : Watch su c p D L stale t₀ below acts w d phase a)
    (hr : w.running = some D) (hx : w.core.tasks[D]? = some x)
    (hact : Frame.runDrive su w D d phase = (v, m))
    (hm : m.onto below = (.drive d' phase' :: below, none)) (hg : Glance L a a' w v)
    (hd : Onward d d' w v)
    (hp : Post su D L p stale d' (if m.waits then none else some D) w.now v.log.waiting a' phase')
    (hk : ¬ (m.waits = true ∧ x.cancelled = true)) :
    Watch su c p D L stale t₀ below (acts ++ [⟨some D, w, w.runTask su D⟩]) (w.runTask su D) d' phase' a' := by
  obtain ⟨y, hy, hs, hret⟩ := h.driver
  obtain rfl := Option.some.inj (hx.symm.trans hy)
  have hcore := World.core_runTask su hx hs
  rw [hret, show (Frame.drive d phase).act su w D none = (v, m) from hact] at hcore
  have hxv : v.core.tasks[D]? = some x := by rw [hg.rest D h.stage.apart.symm, hx]
  have hsaid := h.stage.said_driver (w.runTask su D)
  have hlog : (w.runTask su D).log = v.log := (congrArg Core.log hcore).trans (Core.settle_log ..)
  have hnow : (w.runTask su D).now = w.now :=
    ((congrArg Core.now hcore).trans (Core.settle_now ..)).trans hg.now
  have hrun : (w.runTask su D).running = if m.waits then none else some D := by
    rw [show (w.runTask su D).running = _ from congrArg Core.running hcore, Core.settle_running,
      show v.core.running = some D from hg.running.trans hr]
  refine ⟨h.stage.driver_move hr hx hg hcore hk, ⟨x.moved below m, ?_, ?_, ?_⟩,
    hd.path.trans h.path, hd.load.trans h.load, hd.start.trans h.start, hd.deadline.trans h.deadline, ?_, ?_⟩
  · rw [hcore, Core.settle_self hxv]
  · rw [Activity.moved_onto hk, hm]; rfl
  · rw [Activity.moved_onto hk, hm]; rfl
  · rw [hlog, hsaid, hd.logs, h.logs]
  · rw [hlog, hnow, hrun]
    exact hp

/-- The driver goes on, unless it waits and was asked to end. -/
theorem onward {m : Move} (h : Watch su c p D L stale t₀ below acts w d phase a)
    (hr : w.running = some D)
    (hact : Frame.runDrive su w D d phase = (v, m))
    (hm : m.onto below = (.drive d' phase' :: below, none))
    (hg : Glance L a a' w v) (hd : Onward d d' w v)
    (hp : Post su D L p stale d' (if m.waits then none else some D) w.now v.log.waiting a' phase') :
    Watched su c p D L stale t₀ below (acts ++ [⟨some D, w, w.runTask su D⟩]) (w.runTask su D) := by
  obtain ⟨x, hx, hs, hret⟩ := h.driver
  by_cases hk : m.waits = true ∧ x.cancelled = true
  · have hcore := World.core_runTask su hx hs
    rw [hret, show (Frame.drive d phase).act su w D none = (v, m) from hact] at hcore
    have hxv : v.core.tasks[D]? = some x := by rw [hg.rest D h.stage.apart.symm, hx]
    refine .inr (.gone (x := x.finish .cancelled) ?_ rfl rfl)
    rw [hcore, Core.settle_self hxv, Activity.moved_cancelled hk]
  · exact .inl ⟨d', phase', a', h.goes_on hr hx hact hm hg hd hp hk⟩

theorem leaves {o : Outcome} (h : Watch su c p D L stale t₀ below acts w d phase a)
    (hr : w.running = some D) (hact : Frame.runDrive su w D d phase = (v, .leave o))
    (hg : Glance L a a w v) (ho : ∀ w' : World, w'.now = w.now → w'.log = v.log →
      Returned su p L stale t₀ (acts ++ [⟨some D, w, w'⟩]) w' a o) :
    Came su c p D L stale t₀ below (acts ++ [⟨some D, w, w.runTask su D⟩]) (w.runTask su D) a o := by
  obtain ⟨x, hx, hs, hret⟩ := h.driver
  have hcore := World.core_runTask su hx hs
  rw [hret, show (Frame.drive d phase).act su w D none = (v, .leave o) from hact] at hcore
  have hxv : v.core.tasks[D]? = some x := by rw [hg.rest D h.stage.apart.symm, hx]
  refine ⟨h.stage.driver_move hr hx hg hcore (by simp [Move.waits]), ho _ ?_ ?_,
    ⟨x.put below (some o), ?_, rfl, rfl⟩, ?_⟩
  · exact ((congrArg Core.now hcore).trans (Core.settle_now ..)).trans hg.now
  · exact (congrArg Core.log hcore).trans (Core.settle_log ..)
  · rw [hcore, Core.settle_self hxv]
    rfl
  · rw [show (w.runTask su D).running = _ from congrArg Core.running hcore, Core.settle_running,
      show v.core.running = some D from hg.running.trans hr]
    rfl

/-- A look while the load is not known to be over. -/
theorem runDrive_look (su : Setup) (w : World) (self : Nat) (d : Drive) :
    Frame.runDrive su w self d (.look false) =
      let w₁ : World := { w with log := w.log.drain.2 }
      let d' : Drive := { d with logs := d.logs ++ w.log.waiting }
      if w.log.waiting.contains (endMarker d.path) then (w₁.waitFor self d.load, .goOn (.drive d' .settling))
      else if d.deadline ≤ w.now then ((w₁.cancel d.load).waitFor self d.load, .goOn (.drive d' .stopping))
      else
        match w₁.ended? d.load with
        | some how => Frame.joined w₁ d' how
        | none =>
          if su.driver.pollIntervalMs = 0 then
            ((w₁.waitFor self d.load).standBack self, .halt (.drive d' (.watch w.now)))
          else
            ((w₁.waitFor self d.load).setTimer self (w.now + su.driver.pollIntervalMs),
              .halt (.drive d' (.watch (w.now + su.driver.pollIntervalMs)))) := rfl

/-- The driver looks at the log for the last time. -/
theorem turn_joined (h : Watch su c p D L stale t₀ below acts w d (.look true) a)
    (hr : w.running = some D) :
    Came su c p D L stale t₀ below (acts ++ [⟨some D, w, w.runTask su D⟩]) (w.runTask su D) a
      (.value (.report (.ofLogs p (stale ++ said L acts) false (su.timeAt t₀) (w.now - t₀)))) := by
  cases h.post with
  | joined _ he hc hm =>
    have hact : Frame.runDrive su w D d (.look true) = ({ w with log := w.log.drain.2 },
        .leave (.value (.report (.ofLogs p (stale ++ said L acts) false (su.timeAt t₀) (w.now - t₀))))) := by
      rw [← h.logs, ← h.path, ← h.start]
      rfl
    refine h.leaves hr hact (.still h.stage.load rfl) fun w' hnow hlog => ?_
    have : Returned su p L stale t₀ (acts ++ [⟨some D, w, w'⟩]) w' a _ :=
      .joined he (by rw [hlog]; rfl)
    rwa [h.stage.said_driver, hnow] at this

/-- What the driver has after a look, and what is left in the log. -/
theorem onward_look (h : v.log = w.log.drain.2) : Onward d { d with logs := d.logs ++ w.log.waiting } w v :=
  ⟨rfl, rfl, rfl, rfl, by rw [h]; simp⟩

theorem stale_look (h : Watch su c p D L stale t₀ below acts w d phase a) : stale <+: d.logs ++ w.log.waiting := by
  rw [h.logs]
  exact List.prefix_append _ _

theorem unmarked_look (h : Watch su c p D L stale t₀ below acts w d phase a) (hm : endMarker p ∉ d.logs)
    (hend : ¬ w.log.waiting.contains (endMarker d.path) = true) : endMarker p ∉ d.logs ++ w.log.waiting := by
  rw [h.path] at hend
  simpa [hm] using hend

/-- The driver sees the end marker. -/
theorem look_marked (h : Watch su c p D L stale t₀ below acts w d (.look false) a) (hr : w.running = some D)
    (hc : a.cancelled = false) (hend : w.log.waiting.contains (endMarker d.path) = true) :
    ∃ d', Watch su c p D L stale t₀ below (acts ++ [⟨some D, w, w.runTask su D⟩]) (w.runTask su D) d' .settling a := by
  obtain ⟨x, hx, -⟩ := h.driver
  have hact := (runDrive_look su w D d).trans (if_pos hend)
  have hv : (World.waitFor { w with log := w.log.drain.2 } D d.load).core = { w.core with log := w.log.drain.2 } :=
    World.core_waitFor ..
  refine ⟨_, h.goes_on hr hx hact rfl (.still h.stage.load hv) (onward_look (congrArg Core.log hv))
    (.settling hc ?_ h.stale_look) (by simp [Move.waits])⟩
  rw [h.path] at hend
  exact List.mem_append_right _ (by simpa using hend)

/-- The deadline has passed. The load is asked to end, unless it has. -/
theorem look_late (h : Watch su c p D L stale t₀ below acts w d (.look false) a) (hr : w.running = some D)
    (he : a.ended = none ∨ su.Overlooks L a) (hm : endMarker p ∉ d.logs)
    (hend : ¬ w.log.waiting.contains (endMarker d.path) = true) (hdl : d.deadline ≤ w.now) :
    ∃ d' a', a'.ended = a.ended ∧ Watch su c p D L stale t₀ below (acts ++ [⟨some D, w, w.runTask su D⟩])
      (w.runTask su D) d' .stopping a' := by
  obtain ⟨x, hx, -⟩ := h.driver
  have hload := h.stage.load
  have hact := ((runDrive_look su w D d).trans (if_neg hend)).trans (if_pos hdl)
  set w₁ : World := { w with log := w.log.drain.2 }
  have hv : ((w₁.cancel d.load).waitFor D d.load).core = { w.core with
      log := w.log.drain.2
      tasks := w.core.tasks.modify L fun a =>
        if a.ended.isSome then a else { a with cancelled := true } } := by
    rw [World.core_waitFor, World.core_cancel, h.load]
    rfl
  have hlog : ((w₁.cancel d.load).waitFor D d.load).log = w.log.drain.2 := congrArg Core.log hv
  have hturn : some D ≠ some L := by simpa using h.stage.apart.symm
  rcases he with he | ho
  · exact ⟨_, { a with cancelled := true }, rfl, h.goes_on hr hx hact rfl (.ask hload he hv) (onward_look hlog)
      (.stopping (.inl rfl) hturn (by rw [hlog]; rfl) hdl (h.unmarked_look hm hend)) (by simp [Move.waits])⟩
  · exact ⟨_, a, rfl, h.goes_on hr hx hact rfl (.ask_ended hload ho.1 hv) (onward_look hlog)
      (.stopping (.inr ho) hturn (by rw [hlog]; rfl) hdl (h.unmarked_look hm hend)) (by simp [Move.waits])⟩

/-- There is time left, and the load has not ended. -/
theorem look_again (h : Watch su c p D L stale t₀ below acts w d (.look false) a) (hr : w.running = some D)
    (he : a.ended = none) (hc : a.cancelled = false) (hm : endMarker p ∉ d.logs)
    (hend : ¬ w.log.waiting.contains (endMarker d.path) = true) (hdl : ¬ d.deadline ≤ w.now) :
    Watched su c p D L stale t₀ below (acts ++ [⟨some D, w, w.runTask su D⟩]) (w.runTask su D) := by
  have hload := h.stage.load
  have hact := ((runDrive_look su w D d).trans (if_neg hend)).trans (if_neg hdl)
  set w₁ : World := { w with log := w.log.drain.2 }
  have hended : w₁.ended? d.load = none := by
    rw [World.ended?_core, h.load, show w₁.core.tasks[L]? = some a from hload]
    exact he
  rw [hended] at hact
  have hw₁ : (w₁.waitFor D d.load).core = { w.core with log := w.log.drain.2 } := World.core_waitFor ..
  by_cases hpoll : su.driver.pollIntervalMs = 0
  · have hv : ((w₁.waitFor D d.load).standBack D).core = { w.core with log := w.log.drain.2 } := hw₁
    exact h.onward hr (hact.trans (if_pos hpoll)) rfl (.still hload hv) (onward_look (congrArg Core.log hv))
      (.watching _ hc (h.unmarked_look hm hend) h.stale_look)
  · have hv : ((w₁.waitFor D d.load).setTimer D (w.now + su.driver.pollIntervalMs)).core =
        { w.core with log := w.log.drain.2 } := hw₁
    exact h.onward hr (hact.trans (if_neg hpoll)) rfl (.still hload hv) (onward_look (congrArg Core.log hv))
      (.watching _ hc (h.unmarked_look hm hend) h.stale_look)

/-- There is time left, and the load turns out to have ended. -/
theorem look_joined (h : Watch su c p D L stale t₀ below acts w d (.look false) a) (hr : w.running = some D)
    (he : a.ended.isSome = true) (hc : a.cancelled = false) (hm : endMarker p ∉ d.logs)
    (hend : ¬ w.log.waiting.contains (endMarker d.path) = true) (hdl : ¬ d.deadline ≤ w.now) :
    (∃ d', a.ended = some .done ∧ Watch su c p D L stale t₀ below (acts ++ [⟨some D, w, w.runTask su D⟩])
      (w.runTask su D) d' (.look true) a) ∨
    Came su c p D L stale t₀ below (acts ++ [⟨some D, w, w.runTask su D⟩]) (w.runTask su D) a
      (.fault .loadPanicked) := by
  have hload := h.stage.load
  obtain ⟨how, he⟩ := Option.isSome_iff_exists.1 he
  have hact := ((runDrive_look su w D d).trans (if_neg hend)).trans (if_neg hdl)
  set w₁ : World := { w with log := w.log.drain.2 }
  set d' : Drive := { d with logs := d.logs ++ w.log.waiting }
  have hended : w₁.ended? d.load = some how := by
    rw [World.ended?_core, h.load, show w₁.core.tasks[L]? = some a from hload]
    exact he
  rw [hended] at hact
  by_cases hd : how = .done
  · subst hd
    obtain ⟨x, hx, -⟩ := h.driver
    exact .inl ⟨d', he, h.goes_on hr hx hact rfl (.still hload rfl) (onward_look rfl)
      (.joined rfl he hc (h.unmarked_look hm hend)) (by simp [Move.waits])⟩
  · obtain ⟨rfl, hp⟩ := h.panicked he hd fun _ => hc
    exact .inr (h.leaves hr hact (.still hload rfl) fun w' _ _ => .broken he hp)

/-- The driver looks at the log. -/
theorem turn_look {fin : Bool} (h : Watch su c p D L stale t₀ below acts w d (.look fin) a)
    (hr : w.running = some D) :
    Watched su c p D L stale t₀ below (acts ++ [⟨some D, w, w.runTask su D⟩]) (w.runTask su D) := by
  cases hpost : h.post with
  | joined => exact .inr (.returned (h.turn_joined hr))
  | looking _ he hc hm =>
    by_cases hend : w.log.waiting.contains (endMarker d.path) = true
    · obtain ⟨d', hw⟩ := h.look_marked hr hc hend
      exact .inl ⟨d', _, a, hw⟩
    · by_cases hdl : d.deadline ≤ w.now
      · obtain ⟨d', a', -, hw⟩ := h.look_late hr he hm hend hdl
        exact .inl ⟨d', _, a', hw⟩
      · rcases he with he | ho
        · exact h.look_again hr he hc hm hend hdl
        · rcases h.look_joined hr ho.1 hc hm hend hdl with ⟨d', -, hw⟩ | hcame
          · exact .inl ⟨d', _, a, hw⟩
          · exact .inr (.returned hcame)

/-- A driver that waits goes by its sleep, though its load is over. -/
theorem turn_overlooked {due : Nat} (h : Watch su c p D L stale t₀ below acts w d (.watch due) a)
    (hr : w.running = some D) (he : a.ended.isSome = true) (hf : due ≤ w.now ∧ su.looksFirst d.load = true) :
    Watch su c p D L stale t₀ below (acts ++ [⟨some D, w, w.runTask su D⟩]) (w.runTask su D) d (.look false) a := by
  obtain ⟨x, hx, -⟩ := h.driver
  obtain ⟨how, he'⟩ := Option.isSome_iff_exists.1 he
  cases h.post with
  | watching _ hc hm _ =>
    have hact : Frame.runDrive su w D d (.watch due) = (w.spend, .goOn (.drive d (.look false))) := by
      simp only [Frame.runDrive, h.ended_load, he']
      exact if_pos hf
    exact h.goes_on hr hx hact rfl (h.still rfl) (.same rfl)
      (.looking rfl (.inr ⟨he, h.load ▸ hf.2⟩) hc hm) (by simp [Move.waits])

/-- A driver that waits sees that its load is over. -/
theorem turn_done {due : Nat} (h : Watch su c p D L stale t₀ below acts w d (.watch due) a)
    (hr : w.running = some D) (he : a.ended = some .done) (hf : ¬ (due ≤ w.now ∧ su.looksFirst d.load = true)) :
    Watch su c p D L stale t₀ below (acts ++ [⟨some D, w, w.runTask su D⟩]) (w.runTask su D) d (.look true) a := by
  obtain ⟨x, hx, -⟩ := h.driver
  cases h.post with
  | watching _ hc hm _ =>
    have hact : Frame.runDrive su w D d (.watch due) = ((w.clearTimer D).spend, .goOn (.drive d (.look true))) := by
      simp only [Frame.runDrive, h.ended_load, he]
      exact if_neg hf
    exact h.goes_on hr hx hact rfl (h.still rfl) (.same rfl)
      (.joined rfl he hc hm) (by simp [Move.waits])

/-- A driver that has seen the end marker sees that its load is over. -/
theorem turn_settled (h : Watch su c p D L stale t₀ below acts w d .settling a)
    (hr : w.running = some D) (he : a.ended = some .done) :
    Came su c p D L stale t₀ below (acts ++ [⟨some D, w, w.runTask su D⟩]) (w.runTask su D) a
      (.value (.report (.ofLogs p d.logs false (su.timeAt t₀) (w.now - t₀)))) := by
  cases h.post with
  | settling hc hm hst =>
    have hact : Frame.runDrive su w D d .settling =
        (w.spend, .leave (.value (.report (.ofLogs p d.logs false (su.timeAt t₀) (w.now - t₀))))) := by
      simp only [Frame.runDrive, h.ended_load, he]
      rw [← h.path, ← h.start]
      rfl
    refine h.leaves hr hact (h.still rfl) fun w' hnow hlog => ?_
    have hsaid := h.stage.said_driver w'
    have : Returned su p L stale t₀ (acts ++ [⟨some D, w, w'⟩]) w' a _ :=
      .settled d.logs he (by rw [hlog, hsaid]; exact h.logs) hm hst
    rwa [hnow] at this

/-- The driver waits for its next look at the log. -/
theorem turn_watching {due : Nat} (h : Watch su c p D L stale t₀ below acts w d (.watch due) a)
    (hr : w.running = some D) :
    Watched su c p D L stale t₀ below (acts ++ [⟨some D, w, w.runTask su D⟩]) (w.runTask su D) := by
  obtain ⟨hc, hm, hst⟩ : a.cancelled = false ∧ endMarker p ∉ d.logs ∧ stale <+: d.logs := by
    cases h.post with
    | watching _ hc hm hst => exact ⟨hc, hm, hst⟩
  cases he : a.ended with
  | some how =>
    by_cases hf : due ≤ w.now ∧ su.looksFirst d.load = true
    · exact .inl ⟨d, _, a, h.turn_overlooked hr (by simp [he]) hf⟩
    by_cases hd : how = .done
    · exact .inl ⟨d, _, a, h.turn_done hr (hd ▸ he) hf⟩
    · have hact : Frame.runDrive su w D d (.watch due) = (w.clearTimer D, .leave (.fault .loadPanicked)) := by
        simp only [Frame.runDrive, h.ended_load, he]
        exact (if_neg hf).trans (if_neg hd)
      obtain ⟨rfl, hp⟩ := h.panicked he hd fun _ => hc
      exact .inr (.returned (h.leaves hr hact (h.still rfl) fun w' _ _ => .broken he hp))
  | none =>
    by_cases hdue : due ≤ w.now
    · have hact : Frame.runDrive su w D d (.watch due) = (w.spend, .goOn (.drive d (.look false))) := by
        simp only [Frame.runDrive, h.ended_load, he]
        exact if_pos hdue
      exact h.onward hr hact rfl (h.still rfl) (.same rfl) (.looking rfl (.inl he) hc hm)
    · have hact : Frame.runDrive su w D d (.watch due) = (w, .halt (.drive d (.watch due))) := by
        simp only [Frame.runDrive, h.ended_load, he]
        exact if_neg hdue
      exact h.onward hr hact rfl (h.still rfl) (.same rfl) (.watching due hc hm hst)

/-- The driver has seen the end marker and waits for the load to return. -/
theorem turn_settling (h : Watch su c p D L stale t₀ below acts w d .settling a)
    (hr : w.running = some D) :
    Watched su c p D L stale t₀ below (acts ++ [⟨some D, w, w.runTask su D⟩]) (w.runTask su D) := by
  obtain ⟨hc, hm, hst⟩ : a.cancelled = false ∧ endMarker p ∈ d.logs ∧ stale <+: d.logs := by
    cases h.post with
    | settling hc hm hst => exact ⟨hc, hm, hst⟩
  cases he : a.ended with
  | none =>
    have hact : Frame.runDrive su w D d .settling = (w, .halt (.drive d .settling)) := by
      simp only [Frame.runDrive, h.ended_load, he]
    exact h.onward hr hact rfl (h.still rfl) (.same rfl) (.settling hc hm hst)
  | some how =>
    by_cases hd : how = .done
    · exact .inr (.returned (h.turn_settled hr (hd ▸ he)))
    · have hact : Frame.runDrive su w D d .settling = (w, .leave (.fault .loadPanicked)) := by
        simp only [Frame.runDrive, h.ended_load, he]
      obtain ⟨rfl, hp⟩ := h.panicked he hd fun _ => hc
      exact .inr (.returned (h.leaves hr hact (h.still rfl) fun w' _ _ => .broken he hp))

/-- A driver that has given its load up sees that it is over. What the log holds then is taken too. -/
theorem turn_stopped {how : TaskReport} (h : Watch su c p D L stale t₀ below acts w d .stopping a)
    (hr : w.running = some D) (he : a.ended = some how) (hd : how ≠ .panicked) :
    Came su c p D L stale t₀ below (acts ++ [⟨some D, w, w.runTask su D⟩]) (w.runTask su D) a
      (.value (.report (.ofLogs p (stale ++ said L acts) true (su.timeAt t₀) (w.now - t₀)))) := by
  cases h.post with
  | stopping _ _ hw hdl hm =>
    have hact : Frame.runDrive su w D d .stopping = ({ w.spend with log := w.log.drain.2 },
        .leave (.value (.report (.ofLogs p (stale ++ said L acts) true (su.timeAt t₀) (w.now - t₀))))) := by
      simp only [Frame.runDrive, h.ended_load, he]
      rw [← h.logs, ← h.path, ← h.start]
      rfl
    refine h.leaves hr hact (.still h.stage.load rfl) fun w' hnow hlog => ?_
    have hsaid := h.stage.said_driver w'
    have hm' : endMarker p ∉ stale ++ said L acts := by rwa [← h.logs, hw, List.append_nil]
    have : Returned su p L stale t₀ (acts ++ [⟨some D, w, w'⟩]) w' a _ :=
      .stopped (by rw [he]; rfl) (by rw [hlog]; rfl) (by rwa [hsaid]) (by rw [hnow, ← h.deadline]; exact hdl)
    rwa [hsaid, hnow] at this

/-- The driver has asked the load to end and waits until it has. -/
theorem turn_stopping (h : Watch su c p D L stale t₀ below acts w d .stopping a)
    (hr : w.running = some D) :
    Watched su c p D L stale t₀ below (acts ++ [⟨some D, w, w.runTask su D⟩]) (w.runTask su D) := by
  cases h.post with
  | stopping hc hrun hw hdl hm =>
    cases he : a.ended with
    | none =>
      have hact : Frame.runDrive su w D d .stopping = (w, .halt (.drive d .stopping)) := by
        simp only [Frame.runDrive, h.ended_load, he]
      exact h.onward hr hact rfl (h.still rfl) (.same rfl) (.stopping hc (by simp [Move.waits]) hw hdl hm)
    | some how =>
      by_cases hd : how = .panicked
      · subst hd
        have hact : Frame.runDrive su w D d .stopping = (w, .leave (.fault .loadPanicked)) := by
          simp only [Frame.runDrive, h.ended_load, he]
        obtain ⟨-, hp⟩ := h.panicked he (by simp) (by simp)
        exact .inr (.returned (h.leaves hr hact (h.still rfl) fun w' _ _ => .broken he hp))
      · exact .inr (.returned (h.turn_stopped hr he hd))

/-- A driver writes nothing, and touches neither the registry nor the lock. -/
theorem runDrive_core (su : Setup) (w : World) (self : Nat) (d : Drive) (phase : DrivePhase) :
    ∃ l ts, (Frame.runDrive su w self d phase).1.core = { w.core with log := l, tasks := ts } ∧
      l.history = w.log.history := by
  have still {v : World} (hv : v.core = w.core) :
      ∃ l ts, v.core = { w.core with log := l, tasks := ts } ∧ l.history = w.log.history :=
    ⟨w.log, w.core.tasks, by rw [hv]; rfl, rfl⟩
  have drained {v : World} {ts : List Activity} (hv : v.core = { w.core with log := w.log.drain.2, tasks := ts }) :
      ∃ l ts, v.core = { w.core with log := l, tasks := ts } ∧ l.history = w.log.history :=
    ⟨_, ts, hv, Log.history_drain _⟩
  have joined (u : World) (d : Drive) (how : TaskReport) : (Frame.joined u d how).1.core = u.core := by
    unfold Frame.joined; split_ifs <;> rfl
  have hdr : (Frame.drainInto w d).1.core = { w.core with log := w.log.drain.2, tasks := w.core.tasks } := rfl
  cases phase with
  | look fin =>
    simp only [Frame.runDrive]
    generalize (Frame.drainInto w d).1 = v at hdr ⊢
    generalize (Frame.drainInto w d).2 = e
    split
    · exact drained hdr
    · split
      · exact drained ((World.core_waitFor v self e.load).trans hdr)
      · split
        · refine @drained _ (v.cancel e.load).core.tasks ?_
          rw [World.core_waitFor, World.core_cancel, hdr]
        · split
          · exact drained ((joined v e _).trans hdr)
          · split
            · exact drained ((World.core_waitFor v self e.load).trans hdr)
            · exact drained ((World.core_waitFor v self e.load).trans hdr)
  | watch due =>
    simp only [Frame.runDrive]
    split
    · split_ifs
      · exact still rfl
      · exact still (joined ..)
    · split_ifs <;> exact still rfl
  | settling => simp only [Frame.runDrive]; split <;> exact still rfl
  | stopping =>
    simp only [Frame.runDrive]
    split
    · exact still rfl
    · exact drained rfl
    · exact still rfl

/-- A move of the driver takes no time. -/
theorem now_turn (h : Watch su c p D L stale t₀ below acts w d phase a) : (w.runTask su D).now = w.now := by
  obtain ⟨x, hx, hs, hret⟩ := h.driver
  obtain ⟨l, ts, hcore, -⟩ := runDrive_core su w D d phase
  have hrun := congrArg Core.now (World.core_runTask su hx hs)
  rw [hret, show ((Frame.drive d phase).act su w D none).1.core = _ from hcore] at hrun
  exact hrun.trans (Core.settle_now ..)

/-- A move of the driver. -/
theorem turn (h : Watch su c p D L stale t₀ below acts w d phase a) (hr : w.running = some D) :
    Watched su c p D L stale t₀ below (acts ++ [⟨some D, w, w.runTask su D⟩]) (w.runTask su D) := by
  cases phase with
  | look fin => exact h.turn_look hr
  | watch due => exact h.turn_watching hr
  | settling => exact h.turn_settling hr
  | stopping => exact h.turn_stopping hr

/-- One step under any scheduler. -/
theorem step {m : Option Nat} (h : Watch su c p D L stale t₀ below acts w d phase a) (hm : c.Mute)
    (hc : ∀ sc ∈ su.catalog, sc.obeys c = true) (hn : Next su (fun _ => False) w m w') :
    Watched su c p D L stale t₀ below (acts ++ [⟨m, w, w'⟩]) w' := by
  rcases h.stage.step hm hc hn with ⟨rfl, hr, rfl⟩ | ⟨v, rfl, hv, hvr, rfl⟩ | ⟨a', hb⟩
  · exact h.turn hr
  · obtain ⟨x, hx, -⟩ := h.driver
    refine .inr (.gone (x := x.finish .cancelled) ?_ rfl rfl)
    rw [World.core_drop hv hvr]
    simp [Core.cancelNow, hx]
  · exact .inl ⟨d, phase, a', h.backstage hb⟩

/-- Nothing is written but by the load. -/
theorem step_history {m : Option Nat} (h : Watch su c p D L stale t₀ below acts w d phase a)
    (hm : c.Mute) (hc : ∀ sc ∈ su.catalog, sc.obeys c = true)
    (hn : Next su (fun _ => False) w m w') :
    w'.log.history = w.log.history ++ said L [⟨m, w, w'⟩] := by
  have quiet (hL : m ≠ some L) (hl : w'.log.history = w.log.history) :
      w'.log.history = w.log.history ++ said L [⟨m, w, w'⟩] := by
    simp [said_singleton, hL, hl]
  rcases h.stage.step hm hc hn with ⟨rfl, hr, rfl⟩ | ⟨v, rfl, hv, hvr, rfl⟩ | ⟨a', hb⟩
  · obtain ⟨x, hx, hs, hret⟩ := h.driver
    refine quiet (by simpa using h.stage.apart.symm) ?_
    have hlog : (w.runTask su D).log = ((Frame.drive d phase).act su w D x.returned).1.log :=
      (congrArg Core.log (World.core_runTask su hx hs)).trans (Core.settle_log ..)
    obtain ⟨l, ts, hcore, hl⟩ := runDrive_core su w D d phase
    rw [hlog, hret, show ((Frame.drive d phase).act su w D none).1.log = l from congrArg Core.log hcore, hl]
  · refine quiet (by simp) ?_
    rw [show (v.cancelNow D).log = w.log from congrArg Core.log (World.core_drop (t := D) hv hvr)]
  · obtain ⟨es, hl, hsaid, -⟩ := hb.log
    rw [said_append] at hsaid
    rw [List.append_cancel_left hsaid, hl, Log.history_appendAll]

end Watch

end PageTest
