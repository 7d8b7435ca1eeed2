import PageTest.Proofs.Drive.Return

/-! A driver that takes one path after another. Each load's entries are in its own report, all of
them and in order, and the log is empty between two paths. -/

namespace PageTest

namespace Code

/-- As far as bodies may go without being mistaken for the end of their load. -/
def isolated : Code := writing (· != .testEnd)

theorem unmarked_isolated : isolated.Unmarked := by
  rintro k kind h rfl
  rcases h with ⟨-, h⟩ | h | ⟨-, h⟩
  · simp [LogKind.isWord] at h
  · simp [isolated, writing, Role.manners] at h
  · simp at h

end Code

/-- The task that an act of a driver starts, to load the next of its paths. -/
def Act.launched? (D : Nat) (a : Act) : Option Nat :=
  match a.activity? with
  | none => none
  | some x =>
    match x.stack, x.returned with
    | .driveAll _ (_ :: _) _ :: _, none =>
        if a.mover = some D then some a.before.tasks.length else none
    | _, _ => none

/-- The tasks of the loads that a driver started, in order. -/
def loadsOf (D : Nat) (acts : List Act) : List Nat := acts.filterMap (Act.launched? D)

/-- A task has just been handed a report. -/
def World.Reported (D : Nat) (w : World) : Prop :=
  ∃ x r, w.core.tasks[D]? = some x ∧ x.returned = some (.value (.report r))

variable {su : Setup} {p : String} {D L : Nat} {acts : List Act} {w w' : World} {a : Activity}

/-! The paths that were taken so far -/

/-- The reports so far, and the tasks of their loads. -/
structure Past (D : Nat) (Ls : List Nat) (paths : List String) (results : List RunReport)
    (acts : List Act) (w : World) : Prop where
  paths : results.map (·.path) = paths
  logs : results.map (·.logs) = Ls.map (said · acts)
  ended : ∀ L ∈ Ls, w.Ended L
  fresh : ∀ i, w.tasks.length ≤ i → said i acts = []
  empty : ∀ act ∈ acts, act.after.Reported D → act.after.log.waiting = []
  tabled : w.Tabled

theorem Past.step {may : Nat → Prop} {Ls : List Nat} {paths : List String}
    {results : List RunReport} {m : Option Nat}
    (h : Past D Ls paths results acts w) (hn : Next su may w m w') (he : w'.Reported D → w'.log.waiting = []) :
    Past D Ls paths results (acts ++ [⟨m, w, w'⟩]) w' where
  paths := h.paths
  logs := by
    rw [h.logs]
    refine List.map_congr_left fun L hL => ?_
    have := (hn.ended (h.ended L hL)).1
    simp [said_singleton, this]
  ended L hL := (hn.ended (h.ended L hL)).2
  fresh i hi := by
    have hle := hn.table.1
    rw [said_append, h.fresh i (hle.trans hi), List.nil_append, said_singleton]
    split_ifs with hm
    · -- nobody moves who was not started
      cases hn with
      | @move t _ =>
        obtain rfl : t = i := Option.some.inj hm
        have hnone : w.core.tasks[t]? = none := by
          rw [List.getElem?_eq_none_iff, World.length_core]
          omega
        have hlog : (w.runTask su t).log = w.log :=
          congrArg Core.log (World.core_runTask_none su hnone)
        exact Act.entries_eq (by rw [hlog, List.append_nil])
      | _ => simp at hm
    · rfl
  empty act hact hrep := by
    rcases List.mem_append.1 hact with h1 | h1
    · exact h.empty act h1 hrep
    · obtain rfl := List.mem_singleton.1 h1
      exact he hrep
  tabled := hn.tabled h.tabled

/-- Where a driver of many paths stands. -/
inductive Tour (su : Setup) (D start : Nat) (below : List Frame) (paths : List String)
    (before : List LogEntry) (acts : List Act) (w : World) : Prop
  /-- Between two paths, perhaps with a report that is yet to be filed. -/
  | between {x : Activity} {Ls : List Nat} {past rest : List String}
      {results filed : List RunReport} : Past D Ls past results acts w → paths = past ++ rest →
      loadsOf D acts = Ls →
      w.log.history = before ++ results.flatMap (·.logs) → w.log.waiting = [] → w.running = some D →
      Bystanders .isolated (· = D) w.core → w.core.tasks[D]? = some x →
        x.stack = .driveAll start rest filed :: below →
      ((x.returned = none ∧ results = filed) ∨ ∃ r, x.returned = some (.value (.report r)) ∧ results = filed ++ [r]) →
      Tour su D start below paths before acts w
  | driving {Ls : List Nat} {past rest : List String} {p : String} {results : List RunReport}
      {acts₁ acts₂ : List Act} {L t₀ : Nat} {d : Drive} {phase : DrivePhase} {a : Activity} :
      Past D Ls past results acts w → paths = past ++ p :: rest → loadsOf D acts = Ls ++ [L] →
      w.log.history = before ++ results.flatMap (·.logs) ++ said L acts → acts = acts₁ ++ acts₂ →
        said L acts₁ = [] →
      Watch su .isolated p D L [] t₀ (.driveAll start rest results :: below) acts₂ w d phase a →
      Tour su D start below paths before acts w

/-- The driver has returned its suite, or was given up. -/
inductive Tour.Over (D : Nat) (below : List Frame) (paths : List String) (before : List LogEntry)
    (acts : List Act) (w : World) : Prop
  | returned {x : Activity} {suite : SuiteReport} :
      Past D (loadsOf D acts) paths suite.results acts w →
      w.log.history = before ++ suite.results.flatMap (·.logs) → w.core.tasks[D]? = some x →
        x.stack = below →
      x.returned = some (.value (.suite suite)) → Tour.Over D below paths before acts w
  | gone {x : Activity} : w.core.tasks[D]? = some x → x.stack = [] → x.returned = none →
      Tour.Over D below paths before acts w

theorem loadsOf_snoc (act : Act) :
    loadsOf D (acts ++ [act]) = loadsOf D acts ++ (act.launched? D).toList := by
  cases h : act.launched? D <;> simp [loadsOf, h]

theorem launched?_other {m : Option Nat} (h : m ≠ some D) : (Act.mk m w w').launched? D = none := by
  unfold Act.launched?
  split
  · rfl
  · split
    · exact if_neg h
    · rfl

theorem launched?_drive {x : Activity} {d : Drive} {phase : DrivePhase} {below : List Frame}
    (hx : w.core.tasks[D]? = some x) (hs : x.stack = .drive d phase :: below) (m : Option Nat) :
    (Act.mk m w w').launched? D = none := by
  by_cases hm : m = some D
  · subst hm
    simp [Act.launched?, Act.activity?, hx, hs]
  · exact launched?_other hm

namespace Tour

variable {start t₀ : Nat} {below : List Frame} {paths past rest : List String}
variable {before : List LogEntry} {Ls : List Nat} {results filed : List RunReport} {x : Activity}

/-- All paths were taken. -/
theorem step_suite (hp : Past D Ls past results acts w) (hpaths : paths = past)
    (hls : loadsOf D acts = Ls)
    (hh : w.log.history = before ++ results.flatMap (·.logs)) (hw : w.log.waiting = [])
    (hr : w.running = some D)
    (hx : w.core.tasks[D]? = some x) (hs : x.stack = .driveAll start [] results :: below) (hret : x.returned = none) :
    Tour.Over D below paths before (acts ++ [⟨some D, w, w.runTask su D⟩]) (w.runTask su D) := by
  subst hpaths hls
  have hcore := World.core_runTask su hx hs
  rw [hret] at hcore
  have hlog : (w.runTask su D).log = w.log := (congrArg Core.log hcore).trans (Core.settle_log ..)
  have hxv : ({ w with suite := SuiteReport.ofResults results (w.now - start) } : World).core.tasks[D]? = some x := hx
  have hx' : (w.runTask su D).core.tasks[D]? =
      some (x.put below (some (.value (.suite (.ofResults results (w.now - start)))))) := by
    rw [hcore]
    exact Core.settle_self hxv
  have hstep := hp.step (Next.move hr : Next su (fun _ => False) w (some D) _)
    fun _ => by rw [hlog, hw]
  have hload : loadsOf D (acts ++ [⟨some D, w, w.runTask su D⟩]) = loadsOf D acts := by
    rw [loadsOf_snoc]
    simp [Act.launched?, Act.activity?, hx, hs]
  exact .returned (x := x.put below _) (hload ▸ hstep) (by rw [hlog, hh]; rfl) hx' rfl rfl

/-- The next path is taken. -/
theorem step_launch (hp : Past D Ls past results acts w) (hpaths : paths = past ++ p :: rest)
    (hls : loadsOf D acts = Ls) (hh : w.log.history = before ++ results.flatMap (·.logs))
    (hw : w.log.waiting = [])
    (hr : w.running = some D) (hb : Bystanders .isolated (· = D) w.core)
    (hx : w.core.tasks[D]? = some x)
    (hs : x.stack = .driveAll start (p :: rest) results :: below) (hret : x.returned = none)
    (hclock : su.overflows w.now su.driver.timeoutSecs = false) :
    Tour su D start below paths before (acts ++ [⟨some D, w, w.runTask su D⟩]) (w.runTask su D) := by
  have hD : D < w.tasks.length := by
    have := lt_of_getElem? hx
    rwa [World.length_core] at this
  obtain ⟨v, f, hd⟩ : ∃ v f, w.drive su p = .ok (v, f) := by
    unfold World.drive
    rw [hclock]
    exact ⟨_, _, rfl⟩
  obtain ⟨-, hv, rfl⟩ := World.drive_eq_ok hd
  have hcore := World.core_runTask su hx hs
  have hact : (Frame.driveAll start (p :: rest) results).act su w D none =
      (v, .call (.driveAll start rest results) (.drive (.first su w p) (.look false))) := by
    show Frame.runDriveAll su w start results (p :: rest) = _
    simp only [Frame.runDriveAll, hd]
    rfl
  rw [hret, hact] at hcore
  have hlaunch : (w.runTask su D).core = { (w.core.spawn [[.load p .arriving]]).put D
      (.drive (.first su w p) (.look false) :: .driveAll start rest results :: below) none with
      running := some D } := by
    rw [hcore, hv]
    show (w.core.spawn _).put D _ none = _
    have : ((w.core.spawn [[Frame.load p .arriving]]).put D
        (.drive (.first su w p) (.look false) :: .driveAll start rest results :: below) none).running = some D := hr
    rw [← this]
  have hwatch := Watch.of_launch hlaunch hD hb hp.tabled
  rw [hw] at hwatch
  have hlog : (w.runTask su D).log = w.log := congrArg Core.log hlaunch
  have hsaid : said w.tasks.length (acts ++ [⟨some D, w, w.runTask su D⟩]) = [] := by
    have hne : D ≠ w.tasks.length := by omega
    simp [hp.fresh _ le_rfl, said_singleton, hne]
  refine .driving (hp.step (Next.move hr : Next su (fun _ => False) w (some D) _) fun _ => by rw [hlog, hw])
    hpaths ?_ ?_ (List.append_nil _).symm hsaid hwatch
  · rw [loadsOf_snoc, hls]
    simp [Act.launched?, Act.activity?, hx, hs, hret]
  · rw [hlog, hh, hsaid, List.append_nil]

/-- A report is filed. -/
theorem step_file {r : RunReport} (hp : Past D Ls past (filed ++ [r]) acts w)
    (hpaths : paths = past ++ rest) (hls : loadsOf D acts = Ls)
    (hh : w.log.history = before ++ (filed ++ [r]).flatMap (·.logs))
    (hw : w.log.waiting = []) (hr : w.running = some D) (hb : Bystanders .isolated (· = D) w.core)
    (hx : w.core.tasks[D]? = some x) (hs : x.stack = .driveAll start rest filed :: below)
    (hret : x.returned = some (.value (.report r))) :
    Tour su D start below paths before (acts ++ [⟨some D, w, w.runTask su D⟩]) (w.runTask su D) := by
  have hcore := World.core_runTask su hx hs
  have hact : (Frame.driveAll start rest filed).act su w D (some (.value (.report r))) =
      (w, .goOn (.driveAll start rest (filed ++ [r]))) := rfl
  rw [hret, hact] at hcore
  have hlog : (w.runTask su D).log = w.log := congrArg Core.log hcore
  have hx' : (w.runTask su D).core.tasks[D]? = some (x.put (.driveAll start rest (filed ++ [r]) :: below) none) := by
    rw [hcore]
    exact Core.settle_self hx
  have hload : loadsOf D (acts ++ [⟨some D, w, w.runTask su D⟩]) = loadsOf D acts := by
    rw [loadsOf_snoc]
    simp [Act.launched?, Act.activity?, hx, hs, hret]
  refine .between (x := x.put _ none)
    (hp.step (Next.move hr : Next su (fun _ => False) w (some D) _) fun _ => by rw [hlog, hw]) hpaths
    (hload.trans hls) (by rw [hlog, hh]) (by rw [hlog, hw]) ?_ ?_ hx' rfl (.inl ⟨rfl, rfl⟩)
  · rw [show (w.runTask su D).running = w.running from congrArg Core.running hcore, hr]
  · intro i b hi hb'
    rw [hcore, Core.settle_other hi] at hb'
    exact hb i b hi hb'

/-- A driver came back with the report of its path. -/
theorem between_of_left {acts₁ acts₂ : List Act} (hp : Past D Ls past results acts w)
    (hpaths : paths = past ++ p :: rest) (hls : loadsOf D acts = Ls ++ [L])
    (hh : w.log.history = before ++ results.flatMap (·.logs) ++ said L acts)
    (hacts : acts = acts₁ ++ acts₂)
    (hsaid : said L acts₁ = [])
    (hleft : Left su .isolated p D L [] t₀ (.driveAll start rest results :: below) acts₂ w)
    (hloader : su.loader.panicOn ≠ some p) :
    Tour su D start below paths before acts w ∨ Tour.Over D below paths before acts w := by
  cases hleft with
  | gone hx hs hret => exact .inr (.gone hx hs hret)
  | @returned a o hcame =>
    obtain ⟨timedOut, rfl, -, hw, he⟩ :=
      hcame.returned.whole Code.unmarked_isolated hcame.stage (.inl hloader)
    obtain ⟨x, hx, hs, hret⟩ := hcame.back
    have hst := hcame.stage
    have hr := hcame.turn
    set r := RunReport.ofLogs p (said L acts₂) timedOut (su.timeAt t₀) (w.now - t₀)
    have hlogs : r.logs = said L acts := by
      rw [hacts, said_append, hsaid, List.nil_append]
      rfl
    have hrp : r.path = p := rfl
    have hpast : Past D (Ls ++ [L]) (past ++ [p]) (results ++ [r]) acts w := by
      refine ⟨by simp [hp.paths, hrp], by simp [hp.logs, hlogs], fun i hi => ?_, hp.fresh,
        hp.empty, hp.tabled⟩
      rcases List.mem_append.1 hi with h1 | h1
      · exact hp.ended i h1
      · obtain rfl := List.mem_singleton.1 h1
        exact ⟨hst.main, by rw [hr]; simpa using hst.apart.symm, a, hst.load, he⟩
    refine .inl (.between hpast (by simp [hpaths]) hls ?_ hw hr ?_ hx hs (.inr ⟨r, hret, rfl⟩))
    · rw [hh, ← hlogs]
      simp
    · intro i b hi hb
      by_cases hiL : i = L
      · subst hiL
        obtain rfl := Option.some.inj (hst.load.symm.trans hb)
        rw [hst.task.stack_nil he]
        trivial
      · exact hst.others i b (by simp [hi, hiL]) hb

/-- One step under any scheduler. -/
theorem step {m : Option Nat} (h : Tour su D start below paths before acts w)
    (hc : ∀ sc ∈ su.catalog, sc.obeys .isolated = true)
    (hloader : ∀ p ∈ paths, su.loader.panicOn ≠ some p)
    (hn : Next su (fun _ => False) w m w') (hclock : su.overflows w.now su.driver.timeoutSecs = false) :
    Tour su D start below paths before (acts ++ [⟨m, w, w'⟩]) w' ∨
      Tour.Over D below paths before (acts ++ [⟨m, w, w'⟩]) w' := by
  cases h with
  | @between x Ls past rest results filed hp hpaths hls hh hw hr hb hx hs hret =>
    -- the driver has its turn, so nobody else can do anything
    obtain ⟨rfl, rfl⟩ : m = some D ∧ w' = w.runTask su D := by
      cases hn with
      | move hr' => obtain rfl := Option.some.inj (hr.symm.trans hr'); exact ⟨rfl, rfl⟩
      | rest hr' => simp [hr] at hr'
      | drop hr' => simp [hr] at hr'
      | abort hr' => simp [hr] at hr'
    rcases hret with ⟨hret, rfl⟩ | ⟨r, hret, rfl⟩
    · cases rest with
      | nil => exact .inr (step_suite hp (by simpa using hpaths) hls hh hw hr hx hs hret)
      | cons p rest => exact .inl (step_launch hp hpaths hls hh hw hr hb hx hs hret hclock)
    · exact .inl (step_file hp hpaths hls hh hw hr hb hx hs hret)
  | @driving Ls past rest p results acts₁ acts₂ L t₀ d phase a hp hpaths hls hh hacts hsaid hwatch =>
    obtain ⟨x, hx, hs, hret⟩ := hwatch.driver
    have hload : loadsOf D (acts ++ [⟨m, w, w'⟩]) = Ls ++ [L] := by
      rw [loadsOf_snoc, hls, launched?_drive hx hs m]
      simp
    have hhist : w'.log.history = before ++ results.flatMap (·.logs) ++ said L (acts ++ [⟨m, w, w'⟩]) := by
      rw [hwatch.step_history (Code.mute_writing _) hc hn, hh, said_append,
        List.append_assoc _ (said L acts)]
    have hacts' : acts ++ [⟨m, w, w'⟩] = acts₁ ++ (acts₂ ++ [⟨m, w, w'⟩]) := by
      rw [hacts, List.append_assoc]
    rcases hwatch.step (Code.mute_writing _) hc hn with ⟨d', phase', a', hw'⟩ | hleft
    · refine .inl (.driving (hp.step hn fun hrep => ?_) hpaths hload hhist hacts' hsaid hw')
      obtain ⟨y, r, hy, hyr⟩ := hrep
      obtain ⟨x', hx', -, hret'⟩ := hw'.driver
      obtain rfl := Option.some.inj (hx'.symm.trans hy)
      simp [hret'] at hyr
    · refine between_of_left (hp.step hn fun hrep => ?_) hpaths hload hhist hacts' hsaid hleft
        (hloader p (by simp [hpaths]))
      obtain ⟨y, r, hy, hyr⟩ := hrep
      cases hleft with
      | gone hx' _ hret' =>
        obtain rfl := Option.some.inj (hx'.symm.trans hy)
        simp [hret'] at hyr
      | returned hcame =>
        obtain ⟨_, -, -, hw', -⟩ :=
          hcame.returned.whole Code.unmarked_isolated hcame.stage (.inl (hloader p (by simp [hpaths])))
        exact hw'

theorem Over.not_driving (h : Tour.Over D below paths before acts w) : ¬ w.Driving D below := by
  rintro ⟨y, hy, hl⟩
  cases h with
  | returned _ _ hx hs =>
    obtain rfl := Option.some.inj (hx.symm.trans hy)
    simp [hs] at hl
  | gone hx hs =>
    obtain rfl := Option.some.inj (hx.symm.trans hy)
    simp [hs] at hl

theorem run {w₀ : World} (h : Tour su D start below paths before [] w₀)
    (hc : ∀ sc ∈ su.catalog, sc.obeys .isolated = true)
    (hloader : ∀ p ∈ paths, su.loader.panicOn ≠ some p)
    (hr : Run su (fun _ => False) w₀ acts w) (hin : ∀ act ∈ acts, act.before.Driving D below)
    (hclock : ∀ act ∈ acts, su.overflows act.before.now su.driver.timeoutSecs = false) :
    Tour su D start below paths before acts w ∨ Tour.Over D below paths before acts w := by
  induction hr with
  | start => exact .inl h
  | @step acts w w' m _ hn ih =>
    rcases ih (fun act ha => hin act (by simp [ha])) (fun act ha => hclock act (by simp [ha])) with ht | ho
    · exact ht.step hc hloader hn (hclock ⟨m, w, w'⟩ (by simp))
    · exact absurd (hin ⟨m, w, w'⟩ (by simp)) ho.not_driving

theorem at_work (h : Tour su D start below paths before acts w) : w.Driving D below := by
  cases h with
  | between _ _ _ _ _ _ _ hx hs => exact ⟨_, hx, by simp [hs]⟩
  | driving _ _ _ _ _ _ hwatch =>
    obtain ⟨x, hx, hs, -⟩ := hwatch.driver
    exact ⟨x, hx, by simp [hs]⟩

end Tour

/-- A driver of many paths that comes back comes back with a suite in which each report has all that
its own load wrote, in order, and nothing else; its loads write nothing more, whatever happens
later, and the log was empty whenever a path was over. -/
theorem tour_isolated {start : Nat} {below : List Frame} {paths : List String}
    {x : Activity} {o : Outcome}
    (hc : ∀ sc ∈ su.catalog, sc.obeys .isolated = true)
    (hloader : ∀ p ∈ paths, su.loader.panicOn ≠ some p)
    (hx : w.core.tasks[D]? = some x) (hs : x.stack = .driveAll start paths [] :: below)
    (hret : x.returned = none)
    (hrun : w.running = some D) (hw : w.log.waiting = []) (ht : w.Tabled)
    (hb : Bystanders .isolated (· = D) w.core)
    (hr : Run su (fun _ => False) w acts w') (hin : ∀ act ∈ acts, act.before.Driving D below)
    (hclock : ∀ act ∈ acts, su.overflows act.before.now su.driver.timeoutSecs = false) (hback : w'.Back D below o) :
    ∃ suite, o = .value (.suite suite) ∧ suite.results.map (·.path) = paths ∧
      suite.results.map (·.logs) = (loadsOf D acts).map (said · acts) ∧
      w'.log.history = w.log.history ++ suite.results.flatMap (·.logs) ∧
      (∀ L ∈ loadsOf D acts, ∀ may acts' w'', Run su may w' acts' w'' → said L acts' = []) ∧
      ∀ act ∈ acts, act.after.Reported D → act.after.log.waiting = [] := by
  have htour : Tour su D start below paths w.log.history [] w :=
    .between (⟨rfl, rfl, by simp, by simp, by simp, ht⟩ : Past D [] [] [] [] w) rfl rfl (by simp) hw hrun hb hx hs
      (.inl ⟨hret, rfl⟩)
  obtain ⟨y, hy, hys, hyr⟩ := hback
  rcases htour.run hc hloader hr hin hclock with hdone | hdone
  · obtain ⟨z, hz, hl⟩ := hdone.at_work
    obtain rfl := Option.some.inj (hy.symm.trans hz)
    simp [hys] at hl
  · cases hdone with
    | gone hz _ hzr =>
      obtain rfl := Option.some.inj (hy.symm.trans hz)
      simp [hzr] at hyr
    | @returned z suite hp hh hz hzs hzr =>
      obtain rfl := Option.some.inj (hy.symm.trans hz)
      obtain rfl := Option.some.inj (hzr.symm.trans hyr)
      exact ⟨suite, rfl, hp.paths, hp.logs, hh,
        fun L hL may acts' w'' hr' => (hr'.ended (hp.ended L hL)).1, hp.empty⟩

/-- A path that fails, one that is given up, and one that has no script. -/
def Demo.tour : World := world [.driveAll 0 [failingPath, slowPath, "nowhere"] []] []

/-- All three loads are reported with what they wrote, the one that was given up too. -/
theorem tour_isolated_demo :
    ∃ suite, (Demo.tour.afterSteps Demo.setup 120).Back 0 [] (.value (.suite suite)) ∧
    suite.results.map (·.path) = [Demo.failingPath, Demo.slowPath, "nowhere"] ∧
    suite.results.map (·.logs) = [1, 2, 3].map (said · (Demo.tour.actsOf Demo.setup 120)) := by
  have hloads : loadsOf 0 (Demo.tour.actsOf Demo.setup 120) = [1, 2, 3] := by decide +kernel
  have hscripts : ∀ sc ∈ Demo.setup.catalog, sc.obeys .isolated = true := by decide +kernel
  obtain ⟨o, hback, -⟩ := World.exists_back (w := Demo.tour.afterSteps Demo.setup 120) (D := 0) (q := fun _ => true)
    (by decide +kernel)
  obtain ⟨suite, rfl, hpaths, hlogs, -⟩ :=
    tour_isolated hscripts (by simp [Demo.setup]) rfl rfl rfl rfl rfl
    (Demo.tabled _ _) (Demo.alone _) (World.run_afterSteps 120 Demo.tour) (by decide +kernel) (by decide +kernel) hback
  rw [hloads] at hlogs
  exact ⟨suite, hback, hpaths, hlogs⟩

end PageTest
