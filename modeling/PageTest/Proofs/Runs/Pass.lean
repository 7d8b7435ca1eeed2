import PageTest.Proofs.Runs.Rules
import PageTest.Proofs.Load.Pass

/-! The moves that a run pass makes itself: it starts a test, takes up what the test came to, and is
left with its verdict. Which frames it stands on is of no matter. -/

namespace PageTest

variable {w v : World} {s s' : Story}

/-- A run pass moves on by itself. Only the log and, at its end, the registry are touched. -/
inductive PassMove (w : World) (s : Story) (inner : List Frame) (ret : Option Outcome) :
    World → Move → Prop
  | start {v : World} {u : Test} {queue : List Test} {who : Origin} (es : List LogEntry) (ran : List Ran) :
      v.core = { w.core with log := w.log.appendAll es } →
      Tells s (.running 0) inner ret w es { s with ran } →
      { s with ran }.Testing u queue →
      PassMove w s inner ret v (.call (.pass (some u) queue) (.steps who [] none u.body))
  | next {v : World} {queue : List Test} (es : List LogEntry) (ran : List Ran) : ret.isSome →
      v.core = { w.core with log := w.log.appendAll es } →
      Tells s (.running 0) inner ret w es { s with ran } → { s with ran }.Passing queue →
      PassMove w s inner ret v (.goOn (.pass none queue))
  | back {v : World} {st : RunState} (es : List LogEntry) (ran : List Ran) :
      v.core = { w.core with log := w.log.appendAll es, registry := ⟨[], st⟩ } →
      Tells s (.running 0) inner ret w es { s with ran } → { s with ran }.Concluded st →
      PassMove w s inner ret v (.leave (.value (.state st)))

namespace PassMove

theorem abort {inner : List Frame} {ret : Option Outcome} (es : List LogEntry) (ran : List Ran)
    (f : Frame.Failure) (hv : v.core = { w.core with log := w.log.appendAll es })
    (ht : Tells s (.running 0) inner ret w (es ++ Ran.failed f) { s with ran })
    (hc : { s with ran }.Concluded .aborted) :
    PassMove w s inner ret (Frame.abortPass v f).1 (Frame.abortPass v f).2 := by
  refine .back (es ++ Ran.failed f) ran ?_ ht hc
  have hcore : (Frame.abortPass v f).1.core = { v.core with
      log := (v.core.log.append ⟨.fail, f.message⟩).append ⟨.stack, f.stack⟩
      registry := ⟨[], .aborted⟩ } := rfl
  exact hcore.trans (by rw [hv]; simp [Log.appendAll, Log.append, Ran.failed, World.core])

/-- The next test, or the end of the queue. -/
theorem run {cur : Option Test} {queue : List Test} (hp : s.Passing queue) (hcur : cur = none)
    (hc : s.closing = []) :
    PassMove w s [.pass cur queue] none (Frame.runPass w queue).1 (Frame.runPass w queue).2 := by
  subst hcur
  cases queue with
  | nil =>
    exact .back [] s.ran (by simp [Frame.runPass, Frame.finish, World.core, Log.appendAll, Registry.finish])
      ⟨s.closing_nil, by simp⟩ (.completed (by simpa using hp.taken) hp.completed)
  | cons u queue =>
    have hstart : ((w.append .subtest u.name).append .info (Subtest.entering u.name)).core =
        { w.core with log := w.log.appendAll [⟨.subtest, u.name⟩, ⟨.info, Subtest.entering u.name⟩] } := by
      simp [World.core, World.append, Log.append, Log.appendAll]
    unfold Frame.runPass
    dsimp only
    cases he : u.early with
    | some q =>
      refine abort _ (⟨u, [], some (.panic q)⟩ :: s.ran) _ hstart ⟨?_, ?_⟩
        (.aborted rfl (?_ : s.taken = _ ++ queue) hp.completed rfl)
      · simp [Story.observe, he]
      · simp [Story.log, Ran.log, Ran.closing, hc]
      · simp [hp.taken]
    | none =>
      refine .start _ (⟨u, [], none⟩ :: s.ran) hstart ⟨?_, ?_⟩ ⟨by simp [hp.taken], [], s.ran, rfl, hp.completed⟩
      · simp [Story.observe, he]
      · simp [Story.log, Ran.log, Ran.closing, hc]

/-- A test is over. -/
theorem resume {u : Test} {queue : List Test} (o : Outcome) (ht : s.Testing u queue) (hc : s.closing = []) :
    PassMove w s [.pass (some u) queue] (some o) (Frame.resumePass w u queue o).1
      (Frame.resumePass w u queue o).2 := by
  obtain ⟨said, before, hran, -⟩ := ht.last
  have hend := Story.conclude_cons hran o
  have told : Tells s (.running 0) [.pass (some u) queue] (some o) w (Ran.mk u said (some o)).closing
      { s with ran := ⟨u, said, some o⟩ :: before } := ⟨hend, hend ▸ Story.log_conclude hran hc o⟩
  cases o with
  | value r =>
    exact .next _ _ rfl rfl told (hend ▸ ht.passing r)
  | fault f =>
    exact abort [] _ _ (by simp [World.core, Log.appendAll]) told (hend ▸ ht.aborted (by simp))
  | panic q =>
    exact abort [] _ _ (by simp [World.core, Log.appendAll]) told (hend ▸ ht.aborted (by simp))

end PassMove

end PageTest
