import PageTest.CommandLine.Program
import PageTest.Proofs.Config.Limits
import PageTest.Proofs.Drive.Filed
import PageTest.Proofs.Drive.Launch
import PageTest.Proofs.Forward.Leads

/-! The deadline of a driver and the clock. A deadline beyond the last second of the clock is a panic before
anything else happens; every other driver comes to an end of another kind, whatever it waits for and whoever
gets the turns meanwhile. -/

namespace PageTest

variable {su : Setup} {w v w₀ w' : World} {D : Nat} {below : List Frame} {d : Drive} {phase : DrivePhase} {p : String}
  {may : Nat → Prop} {m : Option Nat} {acts : List Act} {o : Outcome}

/-- What is said when the clock cannot show a deadline. -/
def beyondClock : Panic := .said "overflow when adding duration to instant"

/-- The clock cannot show the deadline of a driver that starts now. -/
def World.Late (su : Setup) (w : World) : Prop := 2 ^ 63 ≤ su.clockSecs + w.now / 1000 + su.driver.timeoutSecs

theorem World.overflows_iff : su.overflows w.now su.driver.timeoutSecs = true ↔ w.Late su := by
  have last : Setup.lastSecond + 1 = 2 ^ 63 := rfl
  rw [Setup.overflows, decide_eq_true_iff, Late, ← last]
  exact Nat.lt_iff_add_one_le

/-- What a driver does with its turn: it stays the only frame of its own, or it is left without a panic. -/
inductive Move.Calm : Move → Prop
  | goOn (d : Drive) (phase : DrivePhase) : Calm (.goOn (.drive d phase))
  | halt (d : Drive) (phase : DrivePhase) : Calm (.halt (.drive d phase))
  | leave {o : Outcome} (h : ∀ q, o ≠ .panic q) : Calm (.leave o)

theorem Frame.calm_runDrive (su : Setup) (w : World) (self : Nat) (d : Drive) (phase : DrivePhase) :
    (runDrive su w self d phase).2.Calm := by
  rcases runDrive_move su w self d phase with ⟨d', phase', -, m | m⟩ | ⟨r, m, -⟩ | ⟨f, m⟩ <;> rw [m]
  · exact .goOn d' phase'
  · exact .halt d' phase'
  · exact .leave nofun
  · exact .leave nofun

/-- A task drives a path, or has come back without a panic, or was given up. -/
inductive Activity.Calm (below : List Frame) (x : Activity) : Prop
  | driving (d : Drive) (phase : DrivePhase) : x.stack = .drive d phase :: below → x.returned = none → Calm below x
  | back (o : Outcome) : x.stack = below → x.returned = some o → (∀ q, o ≠ .panic q) → Calm below x
  | gone : x.stack = [] → x.returned = none → Calm below x

theorem Activity.Calm.moved {x : Activity} {m : Move} (h : m.Calm) : (x.moved below m).Calm below := by
  cases h with
  | goOn d phase => exact .driving d phase rfl rfl
  | halt d phase =>
    unfold Activity.moved
    split_ifs
    · exact .gone rfl rfl
    · exact .driving d phase rfl rfl
  | leave h => exact .back _ rfl rfl h

theorem Activity.Calm.untouched {x x' : Activity} {asked : Prop} (h : x.Calm below) (hu : Untouched asked x x') :
    x'.Calm below := by
  cases h with
  | driving d phase hs hr => exact .driving d phase (hu.stack.trans hs) (hu.returned.trans hr)
  | back o hs hr ho => exact .back o (hu.stack.trans hs) (hu.returned.trans hr) ho
  | gone hs hr => exact .gone (hu.stack.trans hs) (hu.returned.trans hr)

namespace World

/-- The task in which a driver was started. -/
def Calm (D : Nat) (below : List Frame) (w : World) : Prop := ∃ x, w.core.tasks[D]? = some x ∧ x.Calm below

theorem calm_launch (hD : D < w.tasks.length) (h : w.launch su D below p = .ok w₀) : w₀.Calm D below := by
  obtain ⟨-, core⟩ := core_launch h
  obtain ⟨x, hx⟩ : ∃ x, (w.core.spawn [[.load p .arriving]]).tasks[D]? = some x :=
    ⟨_, List.getElem?_eq_getElem (by simp [Core.spawn]; omega)⟩
  rw [Calm, core]
  exact ⟨_, Core.put_tasks_self _ _ hx, .driving _ _ rfl rfl⟩

/-- One step of a run that begins while the driver is at work. -/
theorem Calm.step (h : w.Calm D below) (hin : w.Driving D below) (hn : Next su may w m w') : w'.Calm D below := by
  obtain ⟨x, hx, calm⟩ := h
  cases hn with
  | @move t _ =>
    by_cases hD : D = t
    · subst hD
      obtain ⟨y, hy, more⟩ := hin
      obtain rfl := Option.some.inj (hx.symm.trans hy)
      cases calm with
      | driving d phase hs hret =>
        obtain ⟨x', hx', -⟩ := (Frame.apart_act su w D (.drive d phase) x.returned).tasks D x hx
        refine ⟨x'.moved below _, ?_, .moved (Frame.calm_runDrive su w D d phase)⟩
        rw [core_runTask su hx hs, Core.settle_self hx', hret]
        rfl
      | back _ hs => exact absurd more (by simp [hs])
      | gone hs => exact absurd more (by simp [hs])
    · obtain ⟨x', hx', hu⟩ := runTask_other su hD hx
      exact ⟨x', hx', calm.untouched hu⟩
  | rest _ hl _ => exact ⟨x, by rw [hl.core]; exact hx, calm⟩
  | @drop v t _ hl _ _ =>
    have dropped : (v.cancelNow t).core.tasks = w.core.tasks.modify t (·.finish .cancelled) := by
      rw [core_cancelNow, Core.cancelNow, hl.core]
    by_cases hD : t = D
    · subst hD
      exact ⟨x.finish .cancelled, by simp [dropped, hx], .gone rfl rfl⟩
    · exact ⟨x, by simp [dropped, hx, hD], calm⟩
  | @abort t _ _ =>
    obtain ⟨x', hx', hu⟩ := (w.apart_cancel t).tasks D x hx
    exact ⟨x', hx', calm.untouched hu⟩

/-- A run up to the return of the driver. -/
theorem Calm.run (h : w.Calm D below) (hr : Run su may w acts w') (hin : ∀ act ∈ acts, act.before.Driving D below) :
    w'.Calm D below := by
  induction hr with
  | start => exact h
  | @step acts v v' m _ hn ih =>
    have before := ih fun act hact => hin act (List.mem_append_left _ hact)
    exact before.step (hin ⟨m, v, v'⟩ (List.mem_append_right _ List.mem_cons_self)) hn

theorem Calm.back (h : w.Calm D below) (hback : w.Back D below o) : ∀ q, o ≠ .panic q := by
  obtain ⟨x, hx, calm⟩ := h
  have returned := hback.returned hx
  cases calm with
  | driving d phase _ hret => exact absurd (returned.symm.trans hret) nofun
  | back o' _ hret ho =>
    obtain rfl := Option.some.inj (returned.symm.trans hret)
    exact ho
  | gone _ hret => exact absurd (returned.symm.trans hret) nofun

theorem drive_late (late : w.Late su) : w.drive su p = .error beyondClock := if_pos (overflows_iff.2 late)

theorem drive_early (early : ¬ w.Late su) : ∃ v f, w.drive su p = .ok (v, f) :=
  ⟨_, _, if_neg fun late => early (overflows_iff.1 late)⟩

end World

/-- A frame that is left at once. -/
theorem World.runTask_leave {f : Frame} {x : Task} (hx : w.task? D = some x) (hs : x.stack = f :: below)
    (hr : x.returned = none) (hf : f.run su w D = (v, .leave o)) : w.runTask su D = v.apply D below (.leave o) := by
  unfold runTask
  simp [hx, hs, hr, hf]

namespace Session

variable {s s' : Session} {n : Nat}

theorem run_step (h : s.step? su = some s') : run su (n + 1) s = run su n s' := by
  rw [run, h]

/-- A suite whose first deadline is beyond the clock is over at once. -/
theorem outcomeOf_late (hp : su.patience = none) (page : Page Action) (p : String) (ps : List String)
    (late : 2 ^ 63 ≤ su.clockSecs + su.driver.timeoutSecs) :
    outcomeOf su (.ofPage page) (.runPaths (p :: ps)) = .panic beyondClock := by
  set main : Task := .start [.driveAll 0 (p :: ps) []]
  set w : World := { World.ofPage page with tasks := [main], running := some 0 }
  have drive : w.drive su p = .error beyondClock := World.drive_late (by
    rw [World.Late, show w.now = 0 from rfl]
    omega)
  have started : step? su (ofSteps (.ofPage page) [.runPaths (p :: ps)]) = some ⟨w, [], true, none, []⟩ := by
    simp only [step?, ofSteps, startStep, World.begin, hp]
    rfl
  have left : (Frame.driveAll 0 (p :: ps) []).run su w 0 = (w, .leave (.panic beyondClock)) := by
    simp only [Frame.run, Frame.runDriveAll, drive]
  have moved : step? su ⟨w, [], true, none, []⟩ =
      some ⟨w.apply 0 [] (.leave (.panic beyondClock)), [], true, none, []⟩ := by
    rw [← World.runTask_leave (x := main) rfl rfl rfl left]
    rfl
  have answered : step? su ⟨w.apply 0 [] (.leave (.panic beyondClock)), [], true, none, []⟩ =
      some (answer ⟨w.apply 0 [] (.leave (.panic beyondClock)), [], true, none, []⟩ (.panic beyondClock)) := rfl
  obtain ⟨k, enough⟩ : ∃ k, moves = k + 3 := ⟨moves - 3, (Nat.sub_add_cancel (by decide)).symm⟩
  rw [outcomeOf, answersTo, enough, run_step started, run_step moved, run_step answered, run_answered _ rfl rfl]
  rfl

end Session

namespace CommandLine.Program

theorem pathsOf_cons (a : Arguments) : ∃ p ps, pathsOf a = p :: ps := by
  refine List.exists_cons_of_ne_nil ?_
  unfold pathsOf
  split
  · decide
  next some => simpa using some

/-- The program ends without results if the clock cannot show its first deadline. -/
theorem runWith_late (epoch : Timestamp) {clockSecs : Nat} {a : Arguments} {c : DriverConfig}
    (late : 2 ^ 63 ≤ clockSecs + (override a c).timeoutSecs) :
    runWith epoch clockSecs a c = .ends ⟨101, "", beyondClock.text⟩ := by
  obtain ⟨p, ps, paths⟩ := pathsOf_cons a
  have panics : runAll epoch clockSecs (override a c) (p :: ps) = .panic beyondClock :=
    Session.outcomeOf_late rfl Demo.page p ps late
  rw [runWith, paths, panics]

end CommandLine.Program

/-- Taking a path panics if and only if the clock cannot show its deadline, and then at once: nothing is started.
Once it is started, the driver comes back without a panic, whatever its interval, and whoever moves or is asked to
end meanwhile. The settings of a file stay below `2 ^ 63`, which is not enough: a timeout that together with the
clock passes that bound is accepted, from a file as well as from the command line, and the program ends with 101
and without results. -/
theorem run_path_on_clock (su : Setup) (w : World) (found : List Nat) (p : String) :
    (w.Late su → w.begin su found (.runPath p) = (w, .over (.panic beyondClock))) ∧
    (¬ w.Late su → ∃ v f, w.begin su found (.runPath p) = (v, .within f)) ∧
    (∀ (D : Nat) (below : List Frame) (w₀ w' : World) (may : Nat → Prop) (acts : List Act) (o : Outcome),
      D < w.tasks.length → w.launch su D below p = .ok w₀ → Run su may w₀ acts w' →
      (∀ act ∈ acts, act.before.Driving D below) → w'.Back D below o → ∀ q, o ≠ .panic q) ∧
    (∀ (text : String) (c : DriverConfig), DriverConfig.ofText text = .ok c →
      c.pollIntervalMs < 2 ^ 63 ∧ c.timeoutSecs < 2 ^ 63 ∧ c.harness.wait.intervalMs < 2 ^ 63) ∧
    (∀ (epoch : Timestamp) (clockSecs : Nat) (a : CommandLine.Arguments) (c : DriverConfig),
      2 ^ 63 ≤ clockSecs + a.timeoutSecs.getD c.timeoutSecs →
      CommandLine.Program.runWith epoch clockSecs a c =
        .ends ⟨101, "", "overflow when adding duration to instant"⟩) := by
  refine ⟨fun late => ?_, fun early => ?_, ?_, fun _ _ => DriverConfig.limits_of_text, ?_⟩
  · simp only [World.begin, World.drive_late late]
  · obtain ⟨v, f, started⟩ := World.drive_early (p := p) early
    exact ⟨v, f, by simp only [World.begin, started]⟩
  · intro D below w₀ w' may acts o hD hl hr hin hback
    exact ((World.calm_launch hD hl).run hr hin).back hback
  · intro epoch clockSecs a c late
    exact CommandLine.Program.runWith_late epoch late

/-- The greatest timeout that a file can set, on a clock that shows one second; and a driver that comes back. -/
theorem run_path_on_clock_demo :
    (∃ c : DriverConfig, DriverConfig.ofText "timeout_secs = 9223372036854775807" = .ok c ∧
      CommandLine.Program.runWith ⟨0, 0⟩ 1 .empty c = .ends ⟨101, "", "overflow when adding duration to instant"⟩) ∧
    ∃ o, ((Demo.launched (Demo.world [] []) Demo.failingPath).afterSteps Demo.setup 26).Back 0 [] o ∧
      ∀ q, o ≠ .panic q := by
  obtain ⟨-, -, calm, -, ends⟩ := run_path_on_clock Demo.setup (Demo.world [] []) [] Demo.failingPath
  constructor
  · have read : (DriverConfig.ofText "timeout_secs = 9223372036854775807").toOption.map (·.timeoutSecs) =
        some (2 ^ 63 - 1) := by decide +kernel
    cases accepted : DriverConfig.ofText "timeout_secs = 9223372036854775807" with
    | error e => rw [accepted] at read; cases read
    | ok c =>
      rw [accepted] at read
      have timeout : c.timeoutSecs = 2 ^ 63 - 1 := Option.some.inj read
      refine ⟨c, rfl, ends ⟨0, 0⟩ 1 .empty c ?_⟩
      rw [CommandLine.Arguments.empty, Option.getD_none, timeout]
      decide
  · obtain ⟨o, hback, -⟩ := World.exists_back (D := 0) (q := fun _ => true)
      (w := (Demo.launched (Demo.world [] []) Demo.failingPath).afterSteps Demo.setup 26) (by decide +kernel)
    have hlaunch : (Demo.world [] []).launch Demo.setup 0 [] Demo.failingPath =
        .ok (Demo.launched (Demo.world [] []) Demo.failingPath) := rfl
    exact ⟨o, hback, calm 0 [] _ _ (fun _ => False) _ o (by decide) hlaunch (World.run_afterSteps 26 _)
      (by decide +kernel) hback⟩

end PageTest
