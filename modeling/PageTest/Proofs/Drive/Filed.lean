import PageTest.Proofs.Machine.Apart
import PageTest.Session

/-! A session that takes many paths. If it comes to a suite at all, there is one report for each path, in the
order of the paths, and the suite counts them. -/

namespace PageTest

/-- A suite of one report for each path, with the sums over them. -/
def SuiteReport.Files (paths : List String) (s : SuiteReport) : Prop :=
  ∃ results ms, s = .ofResults results ms ∧ results.map (·.path) = paths

/-- Where a task that takes many paths stands: the reports that it has, with that of the path it is at, go
together with the paths that are left. -/
inductive Filing (paths : List String) (x : Activity) : Prop
  | between {start : Nat} {rest : List String} {results : List RunReport} :
      x.stack = [.driveAll start rest results] → x.returned = none →
      results.map (·.path) ++ rest = paths → Filing paths x
  | driving {d : Drive} {phase : DrivePhase} {start : Nat} {rest : List String} {results : List RunReport} :
      x.stack = [.drive d phase, .driveAll start rest results] → x.returned = none →
      results.map (·.path) ++ d.path :: rest = paths → Filing paths x
  | reported {start : Nat} {rest : List String} {results : List RunReport} {r : RunReport} :
      x.stack = [.driveAll start rest results] → x.returned = some (.value (.report r)) →
      results.map (·.path) ++ r.path :: rest = paths → Filing paths x
  | failed {start : Nat} {rest : List String} {results : List RunReport} {f : Fault} :
      x.stack = [.driveAll start rest results] → x.returned = some (.fault f) → Filing paths x
  | closed : x.stack = [] → (∀ s, x.returned = some (.value (.suite s)) → s.Files paths) → Filing paths x

variable {su : Setup} {w w' : World} {paths : List String} {x x' : Activity}

theorem Filing.congr (h : Filing paths x) (hs : x'.stack = x.stack) (hr : x'.returned = x.returned) :
    Filing paths x' := by
  cases h with
  | between h1 h2 h3 => exact .between (hs.trans h1) (hr.trans h2) h3
  | driving h1 h2 h3 => exact .driving (hs.trans h1) (hr.trans h2) h3
  | reported h1 h2 h3 => exact .reported (hs.trans h1) (hr.trans h2) h3
  | failed h1 h2 => exact .failed (hs.trans h1) (hr.trans h2)
  | closed h1 h2 => exact .closed (hs.trans h1) fun s h => h2 s (hr.symm.trans h)

/-- A driver keeps to its path, and comes back with a report on it if with anything. -/
theorem Frame.runDrive_move (su : Setup) (w : World) (self : Nat) (d : Drive) (phase : DrivePhase) :
    (∃ d' phase', d'.path = d.path ∧ ((runDrive su w self d phase).2 = .goOn (.drive d' phase') ∨
      (runDrive su w self d phase).2 = .halt (.drive d' phase'))) ∨
    (∃ r, (runDrive su w self d phase).2 = .leave (.value (.report r)) ∧ r.path = d.path) ∨
    ∃ f, (runDrive su w self d phase).2 = .leave (.fault f) := by
  have joined (u : World) (d' : Drive) (how : TaskReport) (h : d'.path = d.path) :
      (∃ d₁ phase', d₁.path = d.path ∧ ((joined u d' how).2 = .goOn (.drive d₁ phase') ∨
        (joined u d' how).2 = .halt (.drive d₁ phase'))) ∨
      (∃ r, (joined u d' how).2 = .leave (.value (.report r)) ∧ r.path = d.path) ∨
      ∃ f, (joined u d' how).2 = .leave (.fault f) := by
    unfold Frame.joined
    split_ifs
    · exact .inl ⟨d', _, h, .inl rfl⟩
    · exact .inr (.inr ⟨_, rfl⟩)
  cases phase with
  | look finished =>
    have path : (drainInto w d).2.path = d.path := rfl
    simp only [runDrive]
    split
    · exact .inr (.inl ⟨_, rfl, path⟩)
    · split
      · exact .inl ⟨_, _, path, .inl rfl⟩
      · split
        · exact .inl ⟨_, _, path, .inl rfl⟩
        · split
          · exact joined _ _ _ path
          · split
            · exact .inl ⟨_, _, path, .inr rfl⟩
            · exact .inl ⟨_, _, path, .inr rfl⟩
  | watch due =>
    simp only [runDrive]
    split
    · split
      · exact .inl ⟨_, _, rfl, .inl rfl⟩
      · exact joined _ _ _ rfl
    · split
      · exact .inl ⟨_, _, rfl, .inl rfl⟩
      · exact .inl ⟨_, _, rfl, .inr rfl⟩
  | settling =>
    simp only [runDrive]
    split
    · exact .inr (.inl ⟨_, rfl, rfl⟩)
    · exact .inr (.inr ⟨_, rfl⟩)
    · exact .inl ⟨_, _, rfl, .inr rfl⟩
  | stopping =>
    simp only [runDrive]
    split
    · exact .inr (.inr ⟨_, rfl⟩)
    · exact .inr (.inl ⟨_, rfl, rfl⟩)
    · exact .inl ⟨_, _, rfl, .inr rfl⟩

/-- What becomes of the stack of the task that moves. -/
theorem World.exists_moved (su : Setup) {t : Nat} {f : Frame} {rest : List Frame} (hx : w.core.tasks[t]? = some x)
    (hs : x.stack = f :: rest) : ∃ a, (w.runTask su t).core.tasks[t]? =
      some (Activity.moved a rest (f.act su w t x.returned).2) := by
  obtain ⟨a, ha, -⟩ := (f.apart_act su w t x.returned).tasks t x hx
  exact ⟨a, by rw [core_runTask su hx hs]; exact Core.settle_self ha⟩

theorem Filing.halt {a : Activity} {f : Frame} {rest : List Frame}
    (h : Filing paths (a.put (f :: rest) none)) : Filing paths (a.moved rest (.halt f)) := by
  unfold Activity.moved
  split_ifs
  · exact .closed rfl fun s hs => by simp [Activity.finish] at hs
  · exact h

/-- One move of the task itself. -/
theorem Filing.move (hx : w.core.tasks[0]? = some x) (h : Filing paths x) :
    ∃ x', (w.runTask su 0).core.tasks[0]? = some x' ∧ Filing paths x' := by
  cases h with
  | @between start rest results hs hr hp =>
    obtain ⟨a, ha⟩ := World.exists_moved su hx hs
    rw [hr] at ha
    refine ⟨_, ha, ?_⟩
    show Filing paths (a.moved [] (Frame.runDriveAll su w start results rest).2)
    cases rest with
    | nil =>
      refine .closed rfl fun s hs => ?_
      obtain rfl : SuiteReport.ofResults results (w.now - start) = s := by
        simpa [Frame.runDriveAll, Activity.moved, Activity.put, Move.onto] using hs
      exact ⟨results, _, rfl, by simpa using hp⟩
    | cons p rest =>
      simp only [Frame.runDriveAll]
      split
      · exact .closed rfl fun s hs => by simp [Activity.moved, Activity.put, Move.onto] at hs
      next v f hd =>
        obtain ⟨-, -, rfl⟩ := World.drive_eq_ok hd
        exact .driving rfl rfl hp
  | @driving d phase start rest results hs hr hp =>
    obtain ⟨a, ha⟩ := World.exists_moved su hx hs
    rw [hr] at ha
    refine ⟨_, ha, ?_⟩
    show Filing paths (a.moved _ (Frame.runDrive su w 0 d phase).2)
    rcases Frame.runDrive_move su w 0 d phase with ⟨d', phase', path, m | m⟩ | ⟨r, m, path⟩ | ⟨f, m⟩ <;> rw [m]
    · exact .driving rfl rfl (path ▸ hp)
    · exact .halt (.driving rfl rfl (path ▸ hp))
    · exact .reported rfl rfl (path ▸ hp)
    · exact .failed rfl rfl
  | @reported start rest results r hs hr hp =>
    obtain ⟨a, ha⟩ := World.exists_moved su hx hs
    rw [hr] at ha
    exact ⟨_, ha, .between rfl rfl (by simpa using hp)⟩
  | @failed start rest results f hs hr =>
    obtain ⟨a, ha⟩ := World.exists_moved su hx hs
    rw [hr] at ha
    refine ⟨_, ha, .closed rfl fun s hs => ?_⟩
    simp [Frame.act, Frame.resume, Activity.moved, Activity.put, Move.onto] at hs
  | closed hs hp =>
    refine ⟨x, ?_, .closed hs hp⟩
    rw [World.core_runTask_nil su hx hs]
    exact hx

/-- A step of the run, whoever takes it. -/
theorem Filing.next {may : Nat → Prop} {m : Option Nat} (hn : Next su may w m w')
    (hx : w.core.tasks[0]? = some x) (h : Filing paths x) :
    ∃ x', w'.core.tasks[0]? = some x' ∧ Filing paths x' := by
  cases hn with
  | @move t _ =>
    by_cases ht : 0 = t
    · subst ht
      exact h.move hx
    · obtain ⟨x', hx', same⟩ := World.runTask_other su ht hx
      exact ⟨x', hx', h.congr same.stack same.returned⟩
  | rest _ later _ => exact ⟨x, by rw [later.core]; exact hx, h⟩
  | @drop v t _ later _ _ =>
    have hcore := World.core_cancelNow v t
    rw [later.core] at hcore
    by_cases ht : t = 0
    · subst ht
      refine ⟨x.finish .cancelled, ?_, .closed rfl fun s hs => by simp [Activity.finish] at hs⟩
      rw [hcore]
      simp [Core.cancelNow, hx]
    · refine ⟨x, ?_, h⟩
      rw [hcore]
      simp [Core.cancelNow, ht, hx]
  | abort _ _ =>
    obtain ⟨x', hx', same⟩ := (World.apart_cancel w _).tasks 0 x hx
    exact ⟨x', hx', h.congr same.stack same.returned⟩

namespace Session

/-- A session of a single step, which takes many paths. -/
inductive Files (paths : List String) (s : Session) : Prop
  | ahead : s.busy = false → s.ahead = [.runPaths paths] → s.answers = [] → 0 < s.world.tasks.length →
      Files paths s
  | busy {x : Activity} : s.busy = true → s.ahead = [] → s.answers = [] → s.world.core.tasks[0]? = some x →
      Filing paths x → Files paths s
  | answered {a : Answer} : s.busy = false → s.ahead = [] → s.answers = [a] →
      (∀ suite, a.outcome = .value (.suite suite) → suite.Files paths) → Files paths s

variable {s s' : Session}

theorem Files.start (h : 0 < s.world.tasks.length) (hn : s.answers = []) :
    Files paths (s.startStep su (.runPaths paths) []) := by
  obtain ⟨task, tasks, found⟩ := List.exists_cons_of_length_pos h
  refine .busy (x := task.activity.put [.driveAll s.world.now paths []] none) rfl rfl hn ?_ (.between rfl rfl rfl)
  simp [startStep, World.begin, World.core, World.modifyTask, found, Task.activity, Activity.put]

theorem Files.answer (ha : s.ahead = []) (hn : s.answers = []) {o : Outcome}
    (ho : ∀ suite, o = .value (.suite suite) → suite.Files paths) : Files paths (s.answer o) :=
  .answered rfl ha (by rw [Session.answer, hn]) ho

theorem Files.step (h : Files paths s) (hs : s.step? su = some s') : Files paths s' := by
  cases h with
  | ahead hb ha hn hw =>
    simp only [step?, hb, ha, Bool.false_eq_true, if_false, Option.some.injEq] at hs
    exact hs ▸ .start hw hn
  | @busy x hb ha hn hx hf =>
    have hout (o : Outcome) (ho : s.outcome? = some o) (suite : SuiteReport)
        (hsuite : o = .value (.suite suite)) : suite.Files paths := by
      rw [World.getElem?_core, Option.map_eq_some_iff] at hx
      obtain ⟨task, found, rfl⟩ := hx
      simp only [outcome?, found, List.isEmpty_iff] at ho
      split_ifs at ho with empty
      have hstack : task.activity.stack = [] := empty
      cases hf with
      | closed _ hp => exact hp suite (by rw [← hsuite]; exact ho)
      | between hs | driving hs | reported hs | failed hs => simp [hstack] at hs
    simp only [step?, hb, if_true] at hs
    split at hs
    next o ho =>
      obtain rfl := Option.some.inj hs
      exact .answer ha hn (hout o ho)
    next =>
      split_ifs at hs
      · obtain rfl := Option.some.inj hs
        refine .answer ?_ ?_ fun suite h => Outcome.noConfusion h
        · exact ha
        · exact hn
      · obtain ⟨w', hw', rfl⟩ := Option.map_eq_some_iff.1 hs
        have hnext : Next su (fun _ => False) s.world s.world.running w' := World.next_of_step? hw'
        obtain ⟨x', hx', hf'⟩ := hf.next hnext hx
        exact .busy rfl ha hn hx' hf'
  | answered hb ha =>
    simp [step?, hb, ha] at hs

theorem Files.run (su : Setup) (moves : Nat) (h : Files paths s) : Files paths (Session.run su moves s) := by
  induction moves generalizing s with
  | zero => exact h
  | succ moves ih =>
    rw [Session.run]
    split
    · exact h
    next hs => exact ih (h.step hs)

/-- What taking many paths comes to, if it comes to a suite. -/
theorem outcome_files {suite : SuiteReport} (hw : 0 < w.tasks.length)
    (h : outcomeOf su w (.runPaths paths) = .value (.suite suite)) : suite.Files paths := by
  have start : Files paths (ofSteps w [.runPaths paths]) := .ahead rfl rfl rfl hw
  have last := start.run su moves
  rw [outcomeOf, answersTo] at h
  cases last with
  | ahead _ _ hn => simp [hn] at h
  | busy _ _ hn => simp [hn] at h
  | answered _ _ hn hf => exact hf suite (by simpa [hn] using h)

end Session

end PageTest
