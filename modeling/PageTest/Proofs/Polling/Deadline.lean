import PageTest.Proofs.Polling.Rounds

/-! When a driver gives its load up. It looks at the clock only when it looks at the log, so it is the
first look after the deadline that decides, and not the deadline. -/

namespace PageTest

open World

/-- Nobody but the main task is alive, and nothing is left of what that waited for before. -/
structure World.Deserted (w : World) : Prop where
  main : ∃ x, w.task? 0 = some x ∧ x.cancelled = false
  others : ∀ i x, i ≠ 0 → w.task? i = some x → x.stack = [] ∧ x.ended.isSome = true
  ready : 0 ∉ w.ready
  yielding : 0 ∉ w.yielding
  timers : ∀ tm ∈ w.timers, w.now < tm.1 ∧ tm.2 ≠ 0
  queue : ∀ q ∈ w.lock.queue, q.2 ≠ 0
  handles : some 0 ∉ w.handles
  tabled : w.Tabled

/-- What a task wrote before some time. -/
def saidBefore (t time : Nat) (acts : List Act) : List LogEntry :=
  said t (acts.filter (·.before.now < time))

theorem saidBefore_append (t time : Nat) (acts acts' : List Act) :
    saidBefore t time (acts ++ acts') = saidBefore t time acts ++ saidBefore t time acts' := by
  simp [saidBefore]

theorem World.Early.saidBefore {t time : Nat} {acts : List Act} (h : Early t time acts) :
    saidBefore t time acts = said t acts := by
  induction acts with
  | nil => rfl
  | cons a acts ih =>
    have hrest : Early t time acts := fun act ha => h act (List.mem_cons_of_mem _ ha)
    have hcons (acts : List Act) : said t (a :: acts) = said t [a] ++ said t acts :=
      said_append t [a] acts
    rw [hcons, ← ih hrest, PageTest.saidBefore]
    by_cases hlt : a.before.now < time
    · rw [List.filter_cons_of_pos (by simpa using hlt), hcons]
      rfl
    · have hm : a.mover ≠ some t := fun hm => hlt (h a (by simp) hm)
      rw [List.filter_cons_of_neg (by simpa using hlt), said_singleton, if_neg hm, List.nil_append]
      rfl

variable {su : Setup} {c : Code} {p : String} {L t₀ n : Nat} {below : List Frame}
variable {acts : List Act} {w w₀ w' : World} {d : Drive} {phase : DrivePhase} {a : Activity}

/-- The world in which a driver was just started by the main task. -/
theorem World.launch_eq (hl : w.launch su 0 below p = .ok w₀) :
    w₀ = { (w.start [.load p .arriving]).2.modifyTask 0 fun task =>
      { task with stack := .drive (.first su w p) (.look false) :: below, returned := none } with
        running := some 0 } := by
  unfold launch World.drive at hl
  split_ifs at hl
  exact (Except.ok.inj hl).symm

/-- The other tasks there are those of before, and the load. -/
theorem World.task?_launch {i : Nat} (hl : w.launch su 0 below p = .ok w₀) (hi : i ≠ 0) :
    w₀.task? i = if i = w.tasks.length then some (.start [.load p .arriving]) else w.task? i := by
  rw [launch_eq hl]
  refine (task?_modifyTask_other _ _ hi).trans ?_
  simp only [start, task?, List.getElem?_append, List.getElem?_singleton]
  split_ifs with h1 h2 h2 <;> first | rfl | omega | simp_all

namespace World.Deserted

theorem poised (h : w.Deserted) : 0 < w.tasks.length := by
  obtain ⟨x, hx, -⟩ := h.main
  exact (List.getElem?_eq_some_iff.1 hx).1

theorem bystanders (h : w.Deserted) (c : Code) : Bystanders c (· = 0) w.core := by
  intro i a hi ha
  rw [getElem?_core] at ha
  obtain ⟨x, hx, rfl⟩ := Option.map_eq_some_iff.1 ha
  rw [show x.activity.stack = [] from (h.others i x hi hx).1]
  trivial

/-- A driver has just been started. -/
theorem at_work (h : w.Deserted) (hl : w.launch su 0 below p = .ok w₀) :
    AtWork su p w.tasks.length w.now below [] w₀ (.first su w p) (.look false) := by
  have hother (i : Nat) (hi : i ≠ 0) := World.task?_launch hl hi
  obtain rfl := World.launch_eq hl
  obtain ⟨x, hx, hc⟩ := h.main
  have hpos := h.poised
  have htimers : w.mainTimers = [] :=
    List.filter_eq_nil_iff.2 fun tm htm => by simpa using (h.timers tm htm).2
  refine ⟨⟨⟨hpos, by simp [start, modifyTask]⟩, ?_, h.yielding, fun tm htm => (h.timers tm htm).1,
    ⟨h.handles, fun hm => Nat.lt_irrefl _ (h.tabled _ hm)⟩, fun i y hi hy => ?_⟩, ?_, rfl, rfl, rfl,
    .looking rfl htimers ?_ ⟨0, by rw [Nat.zero_mul]; rfl, by simp⟩ (by simp [Unended]) (by simp [Early])⟩
  · simpa [start, modifyTask] using ⟨h.ready, by omega⟩
  · rw [hother i hi] at hy
    split_ifs at hy
    · obtain rfl := Option.some.inj hy
      simp [Task.start]
    · simp [(h.others i y hi hy).1]
  · refine ⟨{ x with stack := .drive (.first su w p) (.look false) :: below, returned := none }, ?_, rfl, rfl, hc⟩
    refine (task?_modifyTask_self _ _ 0).trans ?_
    rw [show (w.start [.load p .arriving]).2.task? 0 = w.task? 0 from List.getElem?_append_left hpos, hx]
    rfl
  · rw [ended?, hother _ (by omega), if_pos rfl]
    rfl

end World.Deserted

/-- A driver at its rounds: whenever it has seen the end marker before its load returned, that was
written before the last look. -/
structure OnRounds (su : Setup) (c : Code) (p : String) (L t₀ : Nat) (below : List Frame)
    (acts : List Act) (w : World) (d : Drive) (phase : DrivePhase) (a : Activity) : Prop where
  work : AtWork su p L t₀ below acts w d phase
  watch : Watch su c p 0 L [] t₀ below acts w d phase a
  marker : phase = .settling → endMarker p ∈ saidBefore L (su.lastLook t₀) acts

/-- A driver that is back from its rounds. -/
structure OffRounds (su : Setup) (c : Code) (p : String) (L t₀ : Nat) (below : List Frame)
    (acts : List Act) (w : World) (phase : DrivePhase) (a : Activity) (o : Outcome) : Prop where
  came : Came su c p 0 L [] t₀ below acts w a o
  parting : Parting su L t₀ acts w phase o
  marker : phase = .settling → endMarker p ∈ saidBefore L (su.lastLook t₀) acts

/-- A driver at its rounds, or back from them. -/
def Rounded (su : Setup) (c : Code) (p : String) (L t₀ : Nat) (below : List Frame) (acts : List Act) (w : World) :
    Prop :=
  (∃ d phase a, OnRounds su c p L t₀ below acts w d phase a) ∨ ∃ phase a o, OffRounds su c p L t₀ below acts w phase a o

namespace OnRounds

/-- There is one driver, whichever way it is looked at. -/
theorem same {d' : Drive} {phase' : DrivePhase} (h : AtWork su p L t₀ below acts w d phase)
    (h' : Watch su c p 0 L [] t₀ below acts w d' phase' a) : d' = d ∧ phase' = phase := by
  obtain ⟨x, hx, hs, -⟩ := h.drives
  obtain ⟨y, hy, hs', -⟩ := h'.driver
  rw [getElem?_core, hx] at hy
  obtain rfl := Option.some.inj hy
  have he : Frame.drive d phase = .drive d' phase' := (List.cons.inj (hs.symm.trans hs')).1
  injection he with h1 h2
  exact ⟨h1.symm, h2.symm⟩

/-- Nothing has been written since the last look, but by a load that has written its end marker. -/
theorem early (h : OnRounds su c p L t₀ below acts w d phase a) :
    phase = .settling ∨ Early L (su.lastLook t₀) acts := by
  cases h.work.duty with
  | settling => exact .inl rfl
  | looking _ _ _ _ _ he => exact .inr he
  | joined _ _ _ he => exact .inr he
  | watching _ _ _ _ he => exact .inr he
  | due _ _ _ _ _ _ he => exact .inr he
  | stopping _ _ _ _ _ _ _ he => exact .inr he

theorem now_le (h : OnRounds su c p L t₀ below acts w d phase a) :
    phase = .settling ∨ w.now ≤ su.lastLook t₀ := by
  cases h.work.duty with
  | settling => exact .inl rfl
  | looking _ _ _ hg => exact .inr hg.le
  | joined _ hn => exact .inr hn.le
  | watching _ ht hg => exact .inr ((h.work.poised.timers _ (AtWork.mem_timers ht)).le.trans hg.le)
  | due _ _ _ _ hg => exact .inr hg.le
  | stopping _ hn => exact .inr hn.le

/-- One step of the machine. -/
theorem step (h : OnRounds su c p L t₀ below acts w d phase a) (hp : 1 ≤ su.driver.pollIntervalMs)
    (hm : c.Mute) (hc : ∀ sc ∈ su.catalog, sc.obeys c = true) (hs : w.step? su = some w') :
    (∃ d' phase' a', OnRounds su c p L t₀ below (acts ++ [⟨w.running, w, w'⟩]) w' d' phase' a') ∨
      ∃ a' o, OffRounds su c p L t₀ below (acts ++ [⟨w.running, w, w'⟩]) w' phase a' o := by
  have hmore (hset : phase = .settling) :
      endMarker p ∈ saidBefore L (su.lastLook t₀) (acts ++ [⟨w.running, w, w'⟩]) := by
    rw [saidBefore_append]
    exact List.mem_append_left _ (h.marker hset)
  have hwatched := h.watch.step hm hc (next_of_step? hs)
  rcases h.work.step hp hs with ⟨d', phase', hwork, hset⟩ | ⟨o, hback, hpart⟩
  · rcases hwatched with ⟨d'', phase'', a', hwatch⟩ | hleft
    · obtain ⟨rfl, rfl⟩ := same hwork hwatch
      refine .inl ⟨_, _, a', hwork, hwatch, fun hse => ?_⟩
      rcases hset hse with h1 | h1
      · exact hmore h1
      · -- The marker has just been seen, by a look that does not come after the last one.
        subst hse
        have hea : Early L (su.lastLook t₀) (acts ++ [⟨w.running, w, w'⟩]) := by
          refine (h.early.resolve_left (by simp [h1])).snoc fun hL => ?_
          have hduty := h.work.duty
          rw [h1] at hduty
          cases hduty with
          | looking hr => exact absurd (by simpa [hr] using hL.symm) h.work.poised.load_ne
        rw [hea.saidBefore]
        have hlogs := hwatch.logs
        cases hwatch.post with
        | settling _ hmem =>
          rw [List.nil_append] at hlogs
          rw [← hlogs]
          exact List.mem_append_left _ hmem
    · refine absurd ?_ hleft.not_driving
      obtain ⟨x, hx, hs', -⟩ := hwork.drives
      exact ⟨x.activity, by rw [getElem?_core, hx]; rfl, by
        rw [show x.activity.stack = _ from hs']; simp⟩
  · rcases hwatched with ⟨d'', phase'', a', hwatch⟩ | hleft
    · exact absurd hwatch.driving hback.not_driving
    · cases hleft with
      | @returned a' o' hcame =>
        obtain rfl := hback.eq hcame.back
        exact .inr ⟨a', o, hcame, hpart, hmore⟩
      | gone hx _ hret => simp [hback.returned hx] at hret

end OnRounds

namespace Rounded

theorem of_launch (hd : w.Deserted) (hw : w.log.waiting = []) (hl : w.launch su 0 below p = .ok w₀) :
    Rounded su c p w.tasks.length w.now below [] w₀ := by
  have hstart := Watch.of_launch (World.core_launch hl).2 hd.poised (hd.bystanders c) hd.tabled
  rw [hw] at hstart
  exact .inl ⟨_, _, _, hd.at_work hl, hstart, by simp⟩

/-- One step of the machine. -/
theorem step (h : Rounded su c p L t₀ below acts w) (hp : 1 ≤ su.driver.pollIntervalMs)
    (hm : c.Mute) (hc : ∀ sc ∈ su.catalog, sc.obeys c = true) (hin : w.Driving 0 below) (hs : w.step? su = some w') :
    Rounded su c p L t₀ below (acts ++ [⟨w.running, w, w'⟩]) w' := by
  rcases h with ⟨d, phase, a, h⟩ | ⟨phase, a, o, h⟩
  · exact (h.step hp hm hc hs).imp_right fun ⟨a', o, h'⟩ => ⟨phase, a', o, h'⟩
  · exact absurd hin h.came.back.not_driving

/-- Any number of steps of the machine, up to the return of the driver. -/
theorem run (n : Nat) (h : Rounded su c p L t₀ below acts w) (hp : 1 ≤ su.driver.pollIntervalMs)
    (hm : c.Mute) (hc : ∀ sc ∈ su.catalog, sc.obeys c = true)
    (hin : ∀ act ∈ w.actsOf su n, act.before.Driving 0 below) :
    Rounded su c p L t₀ below (acts ++ w.actsOf su n) (w.afterSteps su n) :=
  afterSteps_induction (C := (·.Driving 0 below)) (fun _ _ _ h => h.step hp hm hc) n h hin

end Rounded

/-- What is known of a driver that is back: it gave its load up iff that had not ended, and nobody
had written its end marker, when it looked at the log for the last time. -/
theorem OffRounds.verdict {o : Outcome} (h : OffRounds su c p L t₀ below acts w phase a o) :
    ((∃ r, o = .value (.report r) ∧ r.status = .timedOut) ↔
      Unended L (su.lastLook t₀) acts ∧ endMarker p ∉ saidBefore L (su.lastLook t₀) acts) ∧
    ∀ r, o = .value (.report r) → r.status = .timedOut →
      r.logs = saidBefore L (su.lastLook t₀) acts ∧ w.now = su.lastLook t₀ ∧
      w.ended? L = some .cancelled ∧ w.log.waiting = [] := by
  cases h.parting with
  | finished hun hst _ =>
    refine ⟨⟨?_, fun hu => absurd hu.1 hun⟩, fun r ho ht => absurd ht (hst r ho)⟩
    rintro ⟨r, ho, ht⟩
    exact absurd ht (hst r ho)
  | settled hset hst =>
    refine ⟨⟨?_, fun hu => absurd (h.marker hset) hu.2⟩, fun r ho ht => absurd ht (hst r ho)⟩
    rintro ⟨r, ho, ht⟩
    exact absurd ht (hst r ho)
  | stopped hun hea hnow hend hrep =>
    obtain ⟨r, rfl⟩ := hrep
    have hcan : a.ended = some .cancelled := by
      rw [ended?_core, h.came.stage.load] at hend
      exact hend
    obtain ⟨hr, hmark, hw⟩ : (∃ started ms, r = .ofLogs p (said L acts) true started ms) ∧
        endMarker p ∉ said L acts ∧ w.log.waiting = [] := by
      generalize ho : Outcome.value (.report r) = o at *
      cases h.came.returned with
      | joined he => simp [hcan] at he
      | settled _ he => simp [hcan] at he
      | stopped _ hw hm => exact ⟨⟨_, _, by simpa using ho⟩, by simpa using hm, hw⟩
      | broken => simp at ho
    obtain ⟨started, ms, rfl⟩ := hr
    have hst : (RunReport.ofLogs p (said L acts) true started ms).status = .timedOut := by
      rw [RunReport.ofLogs_status, if_neg hmark]
      rfl
    rw [hea.saidBefore]
    refine ⟨⟨fun _ => ⟨hun, hmark⟩, fun _ => ⟨_, rfl, hst⟩⟩, fun r' hr' _ => ?_⟩
    obtain rfl := by simpa using hr'
    exact ⟨rfl, hnow, hend, hw⟩

/-- A driver gives its load up iff that is still under way when it looks at the log for the last
time, and nobody has written its end marker before. That look is the first one that does not come
before the deadline; so the driver may wait for most of a poll interval longer, but no time passes
between the look and its return. What it reports then is what the load wrote before. -/
theorem timed_out_iff_unended (hm : c.Mute) (hc : ∀ sc ∈ su.catalog, sc.obeys c = true)
    (hp : 1 ≤ su.driver.pollIntervalMs) (hd : w.Deserted) (hw : w.log.waiting = [])
    (hl : w.launch su 0 below p = .ok w₀) (hin : ∀ act ∈ w₀.actsOf su n, act.before.Driving 0 below) :
    let L := w.tasks.length
    let last := w.now + su.driver.lastLook
    let acts := w₀.actsOf su n
    let w' := w₀.afterSteps su n
    (w.now + su.driver.timeoutSecs * 1000 ≤ last ∧
      last < w.now + su.driver.timeoutSecs * 1000 + su.driver.pollIntervalMs) ∧
    (endMarker p ∉ saidBefore L last acts → w'.now ≤ last) ∧
    ∀ o, w'.Back 0 below o →
      ((∃ r, o = .value (.report r) ∧ r.status = .timedOut) ↔
        Unended L last acts ∧ endMarker p ∉ saidBefore L last acts) ∧
      ∀ r, o = .value (.report r) → r.status = .timedOut →
        r.logs = saidBefore L last acts ∧ w'.now = last ∧ w'.ended? L = some .cancelled ∧
        w'.log.waiting = [] := by
  intro L last acts w'
  have hle := DriverConfig.le_lastLook hp
  have hlt := DriverConfig.lastLook_lt hp
  refine ⟨⟨by omega, by omega⟩, ?_⟩
  rcases (Rounded.of_launch (c := c) hd hw hl).run n hp hm hc hin with ⟨d, phase, a, h⟩ | ⟨phase, a, o, h⟩
  · refine ⟨fun hmark => h.now_le.resolve_left fun hs => hmark (h.marker hs), fun o ho => ?_⟩
    exact absurd h.watch.driving ho.not_driving
  · refine ⟨fun hmark => ?_, fun o' ho' => ?_⟩
    · cases h.parting with
      | finished _ _ hnow => exact hnow.le
      | settled hs => exact absurd (h.marker hs) hmark
      | stopped _ _ hnow => exact hnow.le
    · obtain rfl := ho'.eq h.came.back
      exact h.verdict

/-- The demo driver with a second to wait, and two seconds between its looks. -/
def Demo.drowsy : Setup := { setup with driver := { setup.driver with pollIntervalMs := 2000 } }

/-- There is nobody but the driver. -/
theorem Demo.deserted : (world [] []).Deserted where
  main := ⟨_, rfl, rfl⟩
  others i x hi hx := by
    have := (List.getElem?_eq_some_iff.1 hx).1
    simp [world] at this
    omega
  ready := by decide
  yielding := by decide
  timers := by simp [world, World.ofPage]
  queue := by simp [world, World.ofPage, Lock.free]
  handles := by simp [world, World.ofPage]
  tabled := tabled _ _

/-- What the drowsy driver starts from. -/
def Demo.drowsily : World := ((world [] []).launch drowsy 0 [] slowPath).toOption.getD (world [] [])

/-- The slow script is given up after two seconds, one later than the deadline. -/
theorem timed_out_iff_unended_demo : let w' := Demo.drowsily.afterSteps Demo.drowsy 21
    ∃ r, w'.Back 0 [] (.value (.report r)) ∧ r.status = .timedOut ∧ w'.now = 2000 ∧
      r.logs.map LogEntry.text =
        ["TEST_START tests/webtest/slow.js", "SUBTEST slow", "INFO Entering test slow", "PASS begun"] := by
  intro w'
  have hlaunch : (Demo.world [] []).launch Demo.drowsy 0 [] Demo.slowPath = .ok Demo.drowsily := rfl
  obtain ⟨-, -, hback⟩ := timed_out_iff_unended (n := 21) Code.mute_plain (by decide +kernel) (by decide)
    Demo.deserted rfl hlaunch (by decide +kernel)
  obtain ⟨o, ho, -⟩ := World.exists_back (D := 0) (w := w') (q := fun _ => true) (by decide +kernel)
  obtain ⟨hiff, hall⟩ := hback o ho
  obtain ⟨r, rfl, hr⟩ := hiff.2 (by decide +kernel)
  obtain ⟨hlogs, hnow, -⟩ := hall r rfl hr
  refine ⟨r, ho, hr, hnow, ?_⟩
  rw [hlogs]
  decide +kernel

end PageTest
