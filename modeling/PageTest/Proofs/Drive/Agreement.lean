import PageTest.Proofs.Drive.Return
import PageTest.Proofs.Drive.Roll
import PageTest.Proofs.Report.Segments

/-! A report agrees with the load that it is about: its subtests are the tests that were started,
each with what its body did. A load that ends in time is reported at the second turn of its driver
at the latest, or at the third if the driver, with its load and its sleep both over, goes by the sleep. -/

namespace PageTest

namespace Code

/-- Scripts register tests, and they and the bodies of tests check, wait and remark. What they
append is neither the marker of a subtest nor that of the end. Tasks of their own stay away from the
log, the registry and the paths. -/
def plain : Code where
  body := ⟨true, fun kind => kind != .subtest && kind != .testEnd, false, false, false, false,
    false, true, true⟩
  task := ⟨false, fun _ => false, false, false, false, false, false, false, true⟩
  drives_body := rfl
  loads_drives := id
  speaks_task := rfl
  appends_task _ := rfl
  runs_task := rfl

theorem mute_plain : plain.Mute := ⟨rfl, rfl, rfl, rfl⟩

theorem steady_plain : plain.Steady := ⟨rfl, rfl, rfl, rfl, rfl⟩

theorem plain_voices {k : Nat} {kind : LogKind} (h : plain.Voices (.within k) kind) :
    kind ≠ .subtest ∧ kind ≠ .testEnd := by
  rcases h with ⟨-, h⟩ | h | ⟨h, -⟩
  · constructor <;> rintro rfl <;> simp [LogKind.isWord] at h
  · simpa [plain, Role.manners] using h
  · simp [plain, Role.manners] at h

theorem unmarked_plain : plain.Unmarked := fun _ _ h => (plain_voices h).2

end Code

/-! The last turns of a driver -/

/-- How often a task had its turn. -/
def turns (D : Nat) (acts : List Act) : Nat := acts.countP (·.mover == some D)

@[simp] theorem turns_snoc (D : Nat) (acts : List Act) (a : Act) :
    turns D (acts ++ [a]) = turns D acts + if a.mover = some D then 1 else 0 := by
  simp [turns, List.countP_append, List.countP_singleton]

/-- The load of a driver has ended, its sleep is over too, and it goes by the sleep. -/
def World.Tied (su : Setup) (D L : Nat) (w : World) : Prop :=
  (w.ended? L).isSome = true ∧ su.looksFirst L = true ∧ ∃ x d due below, w.core.tasks[D]? = some x ∧
    x.stack = .drive d (.watch due) :: below ∧ due ≤ w.now

/-- The turns that a driver needs at most to be back, once its load has ended. -/
def lastTurns (tied : Bool) : Nat := if tied then 3 else 2

/-- How many of them are still ahead. -/
def DrivePhase.ahead (tied : Bool) : DrivePhase → Nat
  | .watch _ => lastTurns tied
  | .look false => 2
  | _ => 1

theorem two_le_lastTurns (tied : Bool) : 2 ≤ lastTurns tied := by
  cases tied <;> decide

theorem DrivePhase.one_le_ahead (tied : Bool) (phase : DrivePhase) : 1 ≤ phase.ahead tied := by
  have := two_le_lastTurns tied
  unfold ahead
  split <;> omega

theorem DrivePhase.ahead_le (tied : Bool) (phase : DrivePhase) : phase.ahead tied ≤ lastTurns tied := by
  have := two_le_lastTurns tied
  unfold ahead
  split <;> omega

/-- What has become of a driver since its load ended in time. `tied` tells whether it may have gone by its sleep then,
and `late` whether it came to look after its deadline. -/
inductive Closing (su : Setup) (c : Code) (p : String) (D L : Nat)
    (stale : List LogEntry) (t₀ : Nat) (below : List Frame) (tied : Bool) (acts since : List Act)
    (w : World) : Prop
  | on {d : Drive} {phase : DrivePhase} {a : Activity} :
      Watch su c p D L stale t₀ below (acts ++ since) w d phase a → a.ended = some .done →
      (phase = .look false ∨ phase = .stopping → tied = true) →
      turns D since + phase.ahead tied ≤ lastTurns tied → Closing su c p D L stale t₀ below tied acts since w
  | back {a : Activity} {logs : List LogEntry} {late : Bool} {started : Timestamp} {ms : Nat} :
      Came su c p D L stale t₀ below (acts ++ since) w a (.value (.report (.ofLogs p logs late started ms))) →
      a.ended = some .done →
      (late = true → tied = true ∧ t₀ + su.driver.timeoutSecs * 1000 ≤ w.now) →
      Closing su c p D L stale t₀ below tied acts since w
  | gone {x : Activity} : w.core.tasks[D]? = some x → x.stack = [] → x.returned = none →
      turns D since < lastTurns tied → Closing su c p D L stale t₀ below tied acts since w

namespace Closing

variable {su : Setup} {c : Code} {p : String} {D L t₀ : Nat} {stale : List LogEntry}
variable {below : List Frame} {tied : Bool} {acts since : List Act} {w w₁ w' : World} {d d' : Drive}
variable {phase phase' : DrivePhase} {a a' : Activity}

theorem start (h : Watch su c p D L stale t₀ below acts w d phase a) (he : a.ended = some .done)
    (hd : w.now < t₀ + su.driver.timeoutSecs * 1000) (hlook : phase = .look false → tied = true) :
    Closing su c p D L stale t₀ below tied acts [] w := by
  refine .on (by simpa using h : Watch su c p D L stale t₀ below (acts ++ []) w d phase a) he ?_
    (by simpa [turns] using phase.ahead_le tied)
  rintro (rfl | rfl)
  · exact hlook rfl
  · cases h.post with
    | stopping _ _ _ hdl =>
      rw [h.deadline] at hdl
      omega

/-- The driver has moved and goes on. -/
theorem on_snoc (h : Watch su c p D L stale t₀ below (acts ++ since ++ [⟨some D, w, w'⟩]) w' d' phase' a')
    (he : a'.ended = some .done) (hp : phase' = .look false ∨ phase' = .stopping → tied = true)
    (ht : turns D since + phase.ahead tied ≤ lastTurns tied) (hless : phase'.ahead tied < phase.ahead tied) :
    Closing su c p D L stale t₀ below tied acts (since ++ [⟨some D, w, w'⟩]) w' := by
  refine .on (by rwa [← List.append_assoc]) he hp ?_
  rw [turns_snoc, if_pos rfl]
  omega

/-- The driver looks at the log, though its load has ended. -/
theorem turn_look (h : Watch su c p D L stale t₀ below (acts ++ since) w d (.look false) a)
    (he : a.ended = some .done) (hp : tied = true)
    (ht : turns D since + DrivePhase.ahead tied (.look false) ≤ lastTurns tied) (hr : w.running = some D) :
    Closing su c p D L stale t₀ below tied acts (since ++ [⟨some D, w, w.runTask su D⟩]) (w.runTask su D) := by
  cases h.post with
  | looking _ ho hc hm =>
    have ho : su.Overlooks L a := ho.resolve_left (by simp [he])
    by_cases hend : w.log.waiting.contains (endMarker d.path) = true
    · obtain ⟨d', hw⟩ := h.look_marked hr hc hend
      exact on_snoc hw he (by simp) ht (Nat.lt_succ_self 1)
    · by_cases hdl : d.deadline ≤ w.now
      · obtain ⟨d', a', hsame, hw⟩ := h.look_late hr (.inr ho) hm hend hdl
        exact on_snoc hw (hsame.trans he) (fun _ => hp) ht (Nat.lt_succ_self 1)
      · rcases h.look_joined hr ho.1 hc hm hend hdl with ⟨d', -, hw⟩ | hcame
        · exact on_snoc hw he (by simp) ht (Nat.lt_succ_self 1)
        · -- The load did not panic.
          cases hcame.returned with
          | broken hpanic => simp [he] at hpanic

/-- A move of the driver. -/
theorem turn (h : Watch su c p D L stale t₀ below (acts ++ since) w d phase a)
    (he : a.ended = some .done) (hp : phase = .look false ∨ phase = .stopping → tied = true)
    (ht : turns D since + phase.ahead tied ≤ lastTurns tied) (hr : w.running = some D)
    (htie : w.Tied su D L → tied = true) :
    Closing su c p D L stale t₀ below tied acts (since ++ [⟨some D, w, w.runTask su D⟩]) (w.runTask su D) := by
  have hand {logs : List LogEntry} {late : Bool} {started : Timestamp} {ms : Nat}
      (hcame : Came su c p D L stale t₀ below (acts ++ since ++ [⟨some D, w, w.runTask su D⟩]) (w.runTask su D) a
        (.value (.report (.ofLogs p logs late started ms))))
      (hlate : late = true → tied = true ∧ t₀ + su.driver.timeoutSecs * 1000 ≤ (w.runTask su D).now) :
      Closing su c p D L stale t₀ below tied acts (since ++ [⟨some D, w, w.runTask su D⟩]) (w.runTask su D) :=
    .back (by rwa [← List.append_assoc]) he hlate
  cases phase with
  | look fin =>
    cases fin with
    | true => exact hand (h.turn_joined hr) (by simp)
    | false => exact turn_look h he (hp (.inl rfl)) ht hr
  | watch due =>
    by_cases hf : due ≤ w.now ∧ su.looksFirst d.load = true
    · obtain ⟨x, hx, hs, -⟩ := h.driver
      have hended : (w.ended? L).isSome = true := by rw [← h.load, h.ended_load, he]; rfl
      obtain rfl := htie ⟨hended, h.load ▸ hf.2, x, d, due, below, hx, hs, hf.1⟩
      exact on_snoc (h.turn_overlooked hr (by simp [he]) hf) he (by simp) ht (Nat.lt_succ_self 2)
    · exact on_snoc (h.turn_done hr he hf) he (by simp) ht (two_le_lastTurns tied)
  | settling => exact hand (h.turn_settled hr he) (by simp)
  | stopping =>
    refine hand (h.turn_stopped hr he (by simp)) fun _ => ⟨hp (.inr rfl), ?_⟩
    cases h.post with
    | stopping _ _ _ hdl => rwa [← h.deadline, h.now_turn]

theorem step {m : Option Nat} (h : Closing su c p D L stale t₀ below tied acts since w)
    (hin : w.Driving D below) (htie : w.Tied su D L → tied = true) (hm : c.Mute)
    (hc : ∀ sc ∈ su.catalog, sc.obeys c = true) (hn : Next su (fun _ => False) w m w') :
    Closing su c p D L stale t₀ below tied acts (since ++ [⟨m, w, w'⟩]) w' := by
  cases h with
  | back h => exact absurd hin h.back.not_driving
  | gone hx hs =>
    obtain ⟨y, hy, hl⟩ := hin
    obtain rfl := Option.some.inj (hx.symm.trans hy)
    simp [hs] at hl
  | @on d phase a h he hp ht =>
    rcases h.stage.step hm hc hn with ⟨rfl, hr, rfl⟩ | ⟨v, rfl, hv, hvr, rfl⟩ | ⟨a', hb⟩
    · exact turn h he hp ht hr htie
    · obtain ⟨x, hx, -⟩ := h.driver
      refine .gone (x := x.finish .cancelled) ?_ rfl rfl ?_
      · rw [World.core_drop hv hvr]
        simp [Core.cancelNow, hx]
      · have := phase.one_le_ahead tied
        simp
        omega
    · have hmD : m ≠ some D := by
        rintro rfl
        cases hn with
        | move hr => exact hb.idle hr
      refine .on (by rw [← List.append_assoc]; exact h.backstage hb) ((hb.ended (by simp [he])).trans he) hp ?_
      rw [turns_snoc, if_neg hmD]
      exact ht

theorem run (h : Closing su c p D L stale t₀ below tied acts [] w₁) (hm : c.Mute)
    (hc : ∀ sc ∈ su.catalog, sc.obeys c = true) (hr : Run su (fun _ => False) w₁ since w)
    (hin : ∀ act ∈ since, act.before.Driving D below) (htie : ∀ act ∈ since, act.before.Tied su D L → tied = true) :
    Closing su c p D L stale t₀ below tied acts since w := by
  induction hr with
  | start => exact h
  | @step since w w' m _ hn ih =>
    exact (ih (fun act ha => hin act (by simp [ha])) fun act ha => htie act (by simp [ha])).step
      (hin ⟨m, w, w'⟩ (by simp)) (htie ⟨m, w, w'⟩ (by simp)) hm hc hn

/-- The driver is back at its second turn, or its third. -/
theorem exists_back (h : Closing su c p D L stale t₀ below tied acts since w) (hlast : lastTurns tied ≤ turns D since) :
    ∃ o, w.Back D below o := by
  cases h with
  | @on _ phase _ _ _ _ hturns =>
    have := phase.one_le_ahead tied
    omega
  | back hcame => exact ⟨_, hcame.back⟩
  | gone _ _ _ hturns => omega

/-- A driver that is back has a report, and has not given its load up, unless it came late. -/
theorem report {o : Outcome} (h : Closing su c p D L stale t₀ below tied acts since w) (ho : w.Back D below o) :
    ∃ a logs late started ms, o = .value (.report (.ofLogs p logs late started ms)) ∧
      Came su c p D L stale t₀ below (acts ++ since) w a o ∧ a.ended = some .done ∧
      (late = true → tied = true ∧ t₀ + su.driver.timeoutSecs * 1000 ≤ w.now) := by
  cases h with
  | on h => exact absurd h.driving ho.not_driving
  | gone hx _ hret => simp [ho.returned hx] at hret
  | @back a logs late started ms hcame he hlate =>
    obtain rfl := ho.eq hcame.back
    exact ⟨a, logs, late, started, ms, rfl, hcame, he, hlate⟩

end Closing

/-! What a report says of a load that is over -/

/-- What a report says of a load that ended with a story. A load without a run pass leaves no end marker; who comes
late cannot tell it from one that is still going on. -/
structure Agrees (su : Setup) (p : String) (s : Story) (late : Bool) (r : RunReport) : Prop where
  subtests : r.subtests = s.ran.reverse.map Ran.subtest
  /-- The run pass is over: the script had returned, and the tests were started in order, all of them or
  up to the first that raised. -/
  passed_over : ∀ st, s.verdict = some st → s.Loaded ∧ s.Concluded st ∧
    r.passed = (r.subtests.map (·.passed)).sum + countKind .pass s.registered ∧
    r.failed = (r.subtests.map (·.failed)).sum + countKind .fail s.registered ∧
    r.status = if r.failed = 0 then .passed else .failed
  /-- There was no run pass, because there was no script, or because it came to something else than a
  value; the load says what. -/
  unopened : s.verdict = none → s.ran = [] ∧ r.status = (if late then .timedOut else .loadFailed) ∧
    (Frame.startsWith p su.driver.harness.pathStart = false ∨ su.catalog.script? p = none ∨
      ∃ o reason, s.registration = some o ∧ Story.loadError p o = some reason ∧
        s.closing = [⟨.fail, reason⟩])

theorem RunReport.ofLogs_not_timedOut (p : String) (logs : List LogEntry)
    (started : Timestamp) (ms : Nat) : (ofLogs p logs false started ms).status ≠ .timedOut := by
  rw [ofLogs_status]
  split_ifs <;> simp_all

section

variable {su : Setup} {p : String} {s : Story} {logs : List LogEntry}
variable {late : Bool} {started : Timestamp} {ms : Nat}

theorem RunReport.ofLogs_subtests_nil (h : ∀ e ∈ logs, e.kind ≠ .subtest) :
    (ofLogs p logs late started ms).subtests = [] := by
  have := Tally.foldl_none (p := p) (t := .zero) h rfl
  simp [ofLogs, Tally.ofLogs, this]

/-- The load never came to its run pass. -/
theorem Agrees.of_unopened (hran : s.ran = []) (hv : s.verdict = none)
    (hlog : ∀ e ∈ s.log, e.kind ≠ .subtest ∧ e.kind ≠ .testEnd)
    (hwhy : Frame.startsWith p su.driver.harness.pathStart = false ∨ su.catalog.script? p = none ∨
      ∃ o reason, s.registration = some o ∧ Story.loadError p o = some reason ∧
        s.closing = [⟨.fail, reason⟩]) :
    Agrees su p s late (.ofLogs p s.log late started ms) where
  subtests := by
    rw [RunReport.ofLogs_subtests_nil fun e he => (hlog e he).1, hran]
    rfl
  passed_over st h := by simp [hv] at h
  unopened _ := by
    refine ⟨hran, ?_, hwhy⟩
    rw [RunReport.ofLogs_status, if_neg fun hm => (hlog _ hm).2 rfl]

/-- The subtests of a load that came to the end of its run pass. -/
theorem Story.subtests_log (late : Bool) (started : Timestamp) (ms : Nat)
    (hbefore : ∀ e ∈ s.opening ++ s.registered, e.kind ≠ .subtest)
    (hran : ∀ r ∈ s.ran, r.Modest) (hclosing : s.closing = [endMarker p]) :
    (RunReport.ofLogs p s.log late started ms).subtests = s.ran.reverse.map Ran.subtest := by
  have h1 := Tally.foldl_none (p := p) (t := .zero) hbefore rfl
  have h2 := Ran.foldl_logs (fun r (hr : r ∈ s.ran.reverse) => hran r (by simpa using hr)) p
    ((s.opening ++ s.registered).foldl (Tally.count p) .zero)
  rw [h1, List.append_nil] at h2
  have hfold : s.log.foldl (Tally.count p) .zero = Tally.count p ((s.ran.reverse.flatMap Ran.log).foldl (Tally.count p)
      ((s.opening ++ s.registered).foldl (Tally.count p) .zero)) (endMarker p) := by
    rw [Story.log, hclosing, List.foldl_append, List.foldl_append]
    rfl
  have hlast (t : Tally) : (t.count p (endMarker p)).subtests = t.subtests := by
    simp [Tally.count, endMarker]
  simp only [RunReport.ofLogs, Tally.ofLogs, hfold, hlast, h2, List.reverse_reverse]

/-- The run pass is over, and the end marker was written. -/
theorem Agrees.of_concluded {st : RunState} (hopening : s.opening = [⟨.testStart, p⟩])
    (hclosing : s.closing = [endMarker p])
    (hv : s.verdict = some st) (hloaded : s.Loaded) (hcon : s.Concluded st)
    (hreg : ∀ e ∈ s.registered, e.kind ≠ .subtest)
    (hmodest : ∀ r ∈ s.ran, r.Modest) : Agrees su p s late (.ofLogs p s.log late started ms) := by
  have hbefore : ∀ e ∈ s.opening ++ s.registered, e.kind ≠ .subtest := fun e he => by
    rcases List.mem_append.1 he with h1 | h1
    · obtain rfl : e = ⟨.testStart, p⟩ := by simpa [hopening] using h1
      simp
    · exact hreg e h1
  have hsub := Story.subtests_log late started ms hbefore hmodest hclosing
  obtain ⟨hpass, hfail⟩ := Ran.count_logs s.ran.reverse
  refine ⟨hsub, fun st' hst' => ⟨hloaded, ?_, ?_, ?_, ?_⟩, fun hnone => by simp [hv] at hnone⟩
  · obtain rfl := Option.some.inj (hv.symm.trans hst')
    exact hcon
  · rw [hsub, RunReport.ofLogs_passed]
    simp only [Story.log, countKind_append, hpass, hopening, hclosing, endMarker, List.map_map]
    simp [Function.comp_def]
    omega
  · rw [hsub, RunReport.ofLogs_failed]
    simp only [Story.log, countKind_append, hfail, hopening, hclosing, endMarker, List.map_map]
    simp [Function.comp_def]
    omega
  · rw [RunReport.ofLogs_status, if_pos (by simp [Story.log, hclosing]), RunReport.ofLogs_failed]

theorem Agrees.of_over {o : Outcome} (h : Over su .plain p s o) (ho : World.reportOf o = .done)
    (hleave : ∀ r ∈ s.ran, ⟨.info, Subtest.leaving r.test.name⟩ ∉ r.said) :
    Agrees su p s late (.ofLogs p s.log late started ms) := by
  obtain ⟨hreg, hsaid⟩ := h.voices
  have hplain : ∀ e ∈ s.registered, e.kind ≠ .subtest ∧ e.kind ≠ .testEnd := fun e he => by
    obtain ⟨k, hk⟩ := hreg e he
    exact Code.plain_voices hk
  have hmodest : ∀ r ∈ s.ran, r.Modest := fun r hr => ⟨fun e he => by
    obtain ⟨k, hk⟩ := hsaid r hr e he
    exact (Code.plain_voices hk).1, hleave r hr⟩
  cases h with
  | died => simp [World.reportOf] at ho
  | refused _ _ _ hr => simp [Code.plain] at hr
  | rejected hs => exact .of_unopened rfl rfl (by simp [Story.log, Story.blank]) (.inl hs)
  | unknown _ hf => exact .of_unopened rfl rfl (by simp [Story.log, Story.begun, Story.blank]) (.inr (.inl hf))
  | @unregistered s k o' reason hop hran hcame hsays =>
    refine .of_unopened hran hop.verdict (fun e he => ?_) (.inr (.inr ⟨o', reason, hcame, hsays, rfl⟩))
    simp only [Story.log, hop.opening, hran, List.reverse_nil, List.flatMap_nil, List.append_nil,
      List.mem_append,
      List.mem_singleton] at he
    rcases he with (rfl | he) | rfl
    · simp
    · exact hplain e he
    · simp
  | @ended s k st hop hl hcon =>
    refine .of_concluded hop.opening rfl rfl hl ?_ (fun e he => (hplain e he).1) hmodest
    cases hcon with
    | completed h1 h2 => exact .completed h1 h2
    | aborted h1 h2 h3 h4 => exact .aborted h1 h2 h3 h4

end

/-- A load that came to its run pass had a script. -/
theorem Over.found {su : Setup} {c : Code} {p : String} {s : Story} {o : Outcome}
    (h : Over su c p s o) (hv : s.verdict.isSome = true) :
    ∃ sc, su.catalog.script? p = some sc := by
  cases h with
  | ended hop => exact hop.found
  | refused hop => exact hop.found
  | unregistered hop => exact hop.found
  | _ => simp [Story.blank, Story.begun] at hv

/-- The driver of a load that has ended has all that the load wrote in its report. -/
theorem Came.whole {su : Setup} {c : Code} {p : String} {D L t₀ ms : Nat} {below : List Frame} {late : Bool}
    {acts : List Act} {w : World} {a : Activity} {logs : List LogEntry} {started : Timestamp} (hu : c.Unmarked)
    (h : Came su c p D L [] t₀ below acts w a (.value (.report (.ofLogs p logs late started ms))))
    (he : a.ended = some .done) :
    w.log.waiting = [] ∧ logs = said L acts ∧ started = su.timeAt t₀ ∧ ms = w.now - t₀ := by
  obtain ⟨timedOut, heq, -, hw, -⟩ := h.returned.whole hu h.stage (.inr he)
  replace heq : RunReport.ofLogs p logs late started ms =
      .ofLogs p (said L acts) timedOut (su.timeAt t₀) (w.now - t₀) := by simpa using heq
  exact ⟨hw, congrArg RunReport.logs heq, congrArg RunReport.startedAt heq, congrArg RunReport.durationMs heq⟩

theorem Came.agrees {su : Setup} {p : String} {D L t₀ ms : Nat} {below : List Frame} {late : Bool}
    {acts : List Act} {w : World} {a : Activity} {logs : List LogEntry} {started : Timestamp}
    (h : Came su .plain p D L [] t₀ below acts w a (.value (.report (.ofLogs p logs late started ms))))
    (he : a.ended = some .done) (hleave : ∀ r ∈ (story L acts).ran, ⟨.info, Subtest.leaving r.test.name⟩ ∉ r.said) :
    Agrees su p (story L acts) late (.ofLogs p logs late started ms) := by
  obtain ⟨o, hover, hdone⟩ := h.stage.task.over he
  rw [(h.whole Code.unmarked_plain he).2.1, ← h.stage.told]
  exact .of_over hover hdone hleave

/-- A load that ends in time and leaves the markers alone: its driver is back at its second turn after that at the
latest, with a report that agrees with the load, and the tests taken were those of the script. A driver that, with its
load and its sleep both over, goes by the sleep needs one turn more; only then can it come late. -/
theorem report_agrees {su : Setup} {p : String} {D : Nat} {below : List Frame}
    {acts acts' : List Act}
    {w w₀ w₁ w' : World} {a : Activity} (hc : ∀ sc ∈ su.catalog, sc.obeys .plain = true)
    (hD : D < w.tasks.length)
    (ht : w.Tabled) (hb : Bystanders .plain (· = D) w.core) (hw : w.log.waiting = [])
    (hl : w.launch su D below p = .ok w₀) (hr : Run su (fun _ => False) w₀ acts w₁)
    (hin : ∀ act ∈ acts, act.before.Driving D below) (hat : w₁.Driving D below)
    (ha : w₁.core.tasks[w.tasks.length]? = some a) (he : a.ended = some .done)
    (hd : w₁.now < w.now + su.driver.timeoutSecs * 1000) (hr' : Run su (fun _ => False) w₁ acts' w')
    (hin' : ∀ act ∈ acts', act.before.Driving D below)
    (hleave : ∀ r ∈ (story w.tasks.length (acts ++ acts')).ran, ⟨.info, Subtest.leaving r.test.name⟩ ∉ r.said) :
    ((if su.looksFirst w.tasks.length then 3 else 2) ≤ turns D acts' → ∃ o, w'.Back D below o) ∧
      ∀ o, w'.Back D below o → ∃ r late, o = .value (.report r) ∧
      (late = true → su.looksFirst w.tasks.length = true ∧ w.now + su.driver.timeoutSecs * 1000 ≤ w'.now) ∧
      Agrees su p (story w.tasks.length (acts ++ acts')) late r ∧
        ((story w.tasks.length (acts ++ acts')).verdict.isSome = true →
          ∃ sc, su.catalog.script? p = some sc ∧
          (story w.tasks.length (acts ++ acts')).taken = sc.tests) := by
  set L := w.tasks.length
  obtain ⟨-, hcore⟩ := World.core_launch hl
  have hstart := Watch.of_launch hcore hD hb ht
  rw [hw] at hstart
  rcases hstart.run Code.mute_plain hc hr hin with ⟨d, phase, b, hwatch⟩ | hleft
  · obtain rfl := Option.some.inj (ha.symm.trans hwatch.stage.load)
    rw [List.nil_append] at hwatch
    have hlook (hphase : phase = .look false) : su.looksFirst L = true := by
      subst hphase
      cases hwatch.post with
      | looking _ ho => exact (ho.resolve_left (by simp [he])).2
    have hclosing := (Closing.start hwatch he hd hlook).run Code.mute_plain hc hr' hin' fun act _ htie => htie.2.1
    refine ⟨hclosing.exists_back, fun o ho => ?_⟩
    obtain ⟨b, logs, late, started, ms, rfl, hcame, he', hlate⟩ := hclosing.report ho
    obtain ⟨o, hover, -⟩ := hcame.stage.task.over he'
    refine ⟨_, late, rfl, hlate, hcame.agrees he' hleave, fun hv => ?_⟩
    obtain ⟨sc, hsc⟩ := hover.found hv
    have hroll := hstart.roll (OnRoll.start _) Code.mute_plain Code.steady_plain hc
      (fun sc' hsc' => by rw [Option.some.inj (hsc'.symm.trans hsc)]) (hr.trans hr')
      (fun act h => (List.mem_append.1 h).elim (hin act) (hin' act)) hcame.stage.load
    exact ⟨sc, hsc, hroll.taken hv⟩
  · exact absurd hat hleft.not_driving

/-- The second test of the failing demo path raises, and the third is not started. -/
theorem report_agrees_demo : let w₀ := Demo.launched (Demo.world [] []) Demo.failingPath
    let w₁ := w₀.afterSteps Demo.setup 23
    let acts := w₀.actsOf Demo.setup 23 ++ w₁.actsOf Demo.setup 3
    ∃ r, (w₁.afterSteps Demo.setup 3).Back 0 [] (.value (.report r)) ∧
      Agrees Demo.setup Demo.failingPath (story 1 acts) false r ∧
      r.subtests.map (·.name) = ["wrong_expectation", "missing_element"] := by
  intro w₀ w₁ acts
  obtain ⟨a, ha, he⟩ : ∃ a, w₁.core.tasks[1]? = some a ∧ a.ended = some .done := by
    have h : (w₁.core.tasks[1]?.any fun a => a.ended == some .done) = true := by decide +kernel
    obtain ⟨a, ha, he⟩ := (Option.any_eq_true _ _).1 h
    exact ⟨a, ha, beq_iff_eq.1 he⟩
  have hlaunch : (Demo.world [] []).launch Demo.setup 0 [] Demo.failingPath = .ok w₀ := rfl
  obtain ⟨hback, hagrees⟩ := report_agrees (w := Demo.world [] []) (by decide +kernel) (by decide)
    (Demo.tabled _ _) (Demo.alone _) rfl hlaunch (World.run_afterSteps 23 w₀) (by decide +kernel)
    (by decide +kernel) ha he (by decide +kernel) (World.run_afterSteps 3 w₁) (by decide +kernel) (by decide +kernel)
  obtain ⟨o, ho⟩ := hback (by decide +kernel)
  obtain ⟨r, late, rfl, hlate, hr, -⟩ := hagrees o ho
  obtain rfl : late = false := by simpa [Demo.setup] using fun h => (hlate h).1
  refine ⟨r, ho, hr, ?_⟩
  rw [hr.subtests]
  decide +kernel

end PageTest
