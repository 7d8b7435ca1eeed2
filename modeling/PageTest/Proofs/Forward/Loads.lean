import PageTest.Demo
import PageTest.Proofs.Forward.Bodies

/-! What becomes of a run pass, and of a load that has the lock at once. -/

namespace PageTest.World.Engaged

variable {su : Setup} {w : World} {t k : Nat} {d : Desk} {p name : String} {below : List Frame}
variable {x : Test} {cur : Option Test} {queue tests : List Test} {found : List Nat} {r : Reply} {f : Fault}

/-! Run passes -/

theorem append_append (w : World) (t : Nat) (d : Desk) (st : List Frame) (ret : Option Outcome) (e e' : LogEntry) :
    ((w.working t d st ret).append e.kind e.message).append e'.kind e'.message =
      w.working t (d.write [e, e']) st ret := by
  simp [append, Log.append, Desk.write, Log.appendAll, working, idle]

/-- The next test is started. -/
theorem enters (hw : w.Engaged t) (he : x.early = none) (hh : x.hidden = true) :
    (w.working t d (.pass cur (x :: queue) :: below) none).Leads su
      (w.working t (d.write [⟨.subtest, x.name⟩, ⟨.info, Subtest.entering x.name⟩])
        (.steps .hidden [] none x.body :: .pass (some x) queue :: below) none) := by
  refine hw.call ?_
  show Frame.runPass _ (x :: queue) = _
  rw [← append_append]
  simp only [Frame.runPass, he, hh, if_true]

/-- The test has ended. -/
theorem leaves (hw : w.Engaged t) : (w.working t d (.pass (some x) queue :: below) (some (.value r))).Leads su
    (w.working t (d.write [⟨.info, Subtest.leaving x.name⟩]) (.pass none queue :: below) none) :=
  hw.goOn rfl

/-- A test that ends by itself. -/
theorem runs {w' : World} {d' : Desk} (hw : w.Engaged t) (hw' : w'.Engaged t) (he : x.early = none) (hh : x.hidden = true)
    (hbody : (w.working t (d.write [⟨.subtest, x.name⟩, ⟨.info, Subtest.entering x.name⟩])
      (.steps .hidden [] none x.body :: .pass (some x) queue :: below) none).Leads su
        (w'.working t d' (.steps .hidden found none [] :: .pass (some x) queue :: below) none)) :
    (w.working t d (.pass cur (x :: queue) :: below) none).Leads su
      (w'.working t (d'.write [⟨.info, Subtest.leaving x.name⟩]) (.pass none queue :: below) none) :=
  (hw.enters he hh).trans (hbody.trans (hw'.finishes.trans hw'.leaves))

/-- A test has failed, and the pass is given up. -/
theorem aborts (hw : w.Engaged t) : (w.working t d (.pass (some x) queue :: below) (some (.fault f))).Leads su
    (w.working t { d.write [⟨.fail, f.cause.summary⟩, ⟨.stack, f.cause.stack⟩] with registry := ⟨[], .aborted⟩ }
      below (some (.value (.state .aborted)))) := by
  refine hw.leave ?_
  have hlog := append_append w t d (.pass (some x) queue :: below) (some (.fault f)) ⟨.fail, f.cause.summary⟩
    ⟨.stack, f.cause.stack⟩
  show Frame.finish (World.append (World.append _ .fail f.cause.summary) .stack f.cause.stack) .aborted = _
  rw [hlog]
  rfl

theorem completes (hw : w.Engaged t) : (w.working t d (.pass cur [] :: below) none).Leads su
    (w.working t { d with registry := ⟨[], .completed⟩ } below (some (.value (.state .completed)))) :=
  hw.leave rfl

/-! Registration -/

/-- A body that registers tests registers them all. -/
theorem registersAll (hw : w.Engaged t) (hn : w.scene.notices = []) (bodies : List (String × List Step))
    (hr : d.registry.state ≠ .running) :
    (w.working t d (.steps .hidden found none (bodies.map fun b => .addTest b.1 b.2 none true) :: below) none).Leads su
      (w.working t { d with registry := { d.registry with
          tests := d.registry.tests ++ bodies.map fun b => ⟨b.1, b.2, none, true⟩ } }
        (.steps .hidden found none [] :: below) none) := by
  induction bodies generalizing d with
  | nil =>
    simp only [List.map_nil, List.append_nil]
    exact .refl
  | cons b bodies ih =>
    have hdoes : (Step.addTest b.1 b.2 none true).Does su found d { d with registry := { d.registry with
        tests := d.registry.tests ++ [⟨b.1, b.2, none, true⟩] } } .done := by
      intro w t stack _
      have hreg : (w.working t d stack none).registry.register ⟨b.1, b.2, none, true⟩ =
          .ok { d.registry with tests := d.registry.tests ++ [⟨b.1, b.2, none, true⟩] } := if_neg hr
      simp only [World.begin, register, hreg]
      rfl
    refine Leads.trans (by exact hw.step hn hdoes) ?_
    have hrest := ih (d := { d with registry := { d.registry with
        tests := d.registry.tests ++ [⟨b.1, b.2, none, true⟩] } }) hr
    rw [List.append_assoc] at hrest
    exact hrest

/-! Loads -/

variable {n : Nat}

/-- The load goes on where it was. -/
theorem takesUp (hw : w.Engaged t) (phase : LoadPhase) :
    (w.working t d (.load p phase :: below) (some (.value r))).Leads su
      (w.working t d (.load p phase :: below) none) := by
  refine hw.goOn ?_
  cases phase <;> rfl

/-- Nobody queues for the lock that is given back. -/
theorem leaveLock_working (hl : d.lock = ⟨some k, [], n⟩) (w : World) (t : Nat) (st : List Frame) (ret : Option Outcome) :
    (w.working t d st ret).leaveLock k = w.working t { d with lock := ⟨none, [], n⟩ } st ret := by
  have hleave : (w.working t d st ret).lock.leave k = (none, ⟨none, [], n⟩) := by
    rw [show (w.working t d st ret).lock = ⟨some k, [], n⟩ from hl, Lock.leave, if_pos rfl]
    rfl
  rw [leaveLock, hleave]
  rfl

/-- A load that fails leaves an entry with the reason. -/
theorem failLoad_working (hl : d.lock = ⟨some k, [], n⟩) (w : World) (t : Nat) (st : List Frame) (ret : Option Outcome)
    (reason : String) : Frame.failLoad (w.working t d st ret) k reason =
      (w.working t { d.write [⟨.fail, reason⟩] with lock := ⟨none, [], n⟩ } st ret, .leave (.value .done)) :=
  congrArg (·, Move.leave (.value .done)) (leaveLock_working (d := d.write [⟨.fail, reason⟩]) hl w t st ret)

/-- Nobody has the lock: the load has it at once. -/
theorem draws (hw : w.Engaged t) (hl : d.lock = ⟨none, [], k⟩) (ha : d.allowance ≠ 0) :
    (w.working t d (.load p .arriving :: below) none).Leads su
      (w.working t { d with lock := ⟨some k, [], k + 1⟩, allowance := d.allowance - 1 }
        (.load p (.entered k) :: below) none) := by
  have hqueue : (w.working t d (.load p .arriving :: below) none).Leads su
      (w.working t { d with lock := ⟨some k, [], k + 1⟩ } (.load p (.queueing k) :: below) none) := by
    refine hw.goOn ?_
    have hl' : (w.working t d (.load p .arriving :: below) none).lock = ⟨none, [], k⟩ := hl
    show Frame.runLoad su _ t p .arriving = _
    rw [Frame.runLoad, if_neg (by exact ha), hl']
    rfl
  exact hqueue.trans (hw.goOn (if_pos rfl))

/-- The load begins. -/
theorem opens (hw : w.Engaged t) (hp : Frame.startsWith p su.driver.harness.pathStart = true)
    (hdelay : su.loader.delayMs = 0) :
    (w.working t d (.load p (.entered k) :: below) none).Leads su
      (w.working t { d.write [⟨.testStart, p⟩] with registry := .empty } (.load p (.loading k) :: below) none) := by
  refine hw.goOn ?_
  show Frame.runLoad su _ t p (.entered k) = _
  rw [Frame.runLoad, if_pos hp, if_pos hdelay]
  rfl

/-- Such a path cannot be loaded. -/
theorem refuses (hw : w.Engaged t) (hl : d.lock = ⟨some k, [], n⟩)
    (hp : Frame.startsWith p su.driver.harness.pathStart = false) :
    (w.working t d (.load p (.entered k) :: below) none).Leads su
      (w.working t { d.write [⟨.fail, Frame.unsupportedPath p⟩] with lock := ⟨none, [], n⟩ } below
        (some (.value .done))) := by
  refine hw.leave ?_
  show Frame.runLoad su _ t p (.entered k) = _
  rw [Frame.runLoad, if_neg (by simp [hp]), failLoad_working hl]

/-- There is no such script. -/
theorem misses (hw : w.Engaged t) (hl : d.lock = ⟨some k, [], n⟩) (hpanic : su.loader.panicOn = none)
    (hs : su.catalog.script? p = none) :
    (w.working t d (.load p (.loading k) :: below) none).Leads su
      (w.working t { d.write [⟨.fail, Frame.noSuchScript p⟩] with lock := ⟨none, [], n⟩ } below
        (some (.value .done))) := by
  refine hw.leave ?_
  show Frame.runLoad su _ t p (.loading k) = _
  rw [Frame.runLoad, if_neg (by simp [hpanic]), hs]
  exact failLoad_working hl _ _ _ _ _

/-- The tests of a script that does nothing but register them are about to run. -/
theorem registers (hw : w.Engaged t) (hn : w.scene.notices = []) (hpanic : su.loader.panicOn = none)
    {bodies : List (String × List Step)} (hs : su.catalog.script? p = some (Demo.script p bodies))
    (hr : d.registry = .empty) :
    (w.working t d (.load p (.loading k) :: below) none).Leads su
      (w.working t { d with registry := ⟨[], .running⟩ }
        (.pass none (bodies.map fun b => ⟨b.1, b.2, none, true⟩) :: .load p (.running k) :: below) none) := by
  have hcall : (w.working t d (.load p (.loading k) :: below) none).Leads su (w.working t d
      (.steps .hidden [] none (bodies.map fun b => .addTest b.1 b.2 none true) :: .load p (.registering k) :: below)
      none) := by
    refine hw.call ?_
    show Frame.runLoad su _ t p (.loading k) = _
    rw [Frame.runLoad, if_neg (by simp [hpanic]), hs]
    rfl
  refine hcall.trans ((hw.registersAll hn bodies (by simp [hr, Registry.empty])).trans (hw.finishes.trans ?_))
  rw [hr]
  exact Leads.trans (hw.takesUp (.registering k)) (hw.call rfl)

/-- The load is over. -/
theorem closes (hw : w.Engaged t) (hl : d.lock = ⟨some k, [], n⟩) :
    (w.working t d (.load p (.running k) :: below) (some (.value r))).Leads su
      (w.working t { d.write [⟨.testEnd, p⟩] with lock := ⟨none, [], n⟩ } below (some (.value .done))) := by
  refine (hw.takesUp (.running k)).trans (hw.leave ?_)
  exact congrArg (·, Move.leave (.value .done)) (leaveLock_working (d := d.write [⟨.testEnd, p⟩]) hl w t _ _)

end PageTest.World.Engaged
