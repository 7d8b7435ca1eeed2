import PageTest.Proofs.Runs.Bodies

/-! What one move of a body does to what all tasks share. A body may begin a run pass or a load of
its own; apart from that it has one of a few effects on the registry and none on the lock. -/

namespace PageTest

namespace Frame

/-- A body, or what a body waits in. -/
def isPlain : Frame → Bool
  | .load .. | .pass .. | .drive .. | .driveAll .. => false
  | _ => true

/-- Whether the frame may write to the log with its next move. -/
def Says : Frame → Prop
  | .poll .. | .waitLoad .. => True
  | .steps _ _ _ (s :: _) => s.bare.speaks = true ∨ ∃ kind msg, s.bare = .append kind msg
  | _ => False

end Frame

/-- The frames that a move leaves in the place of the one that made it, the innermost first. -/
def Move.frames : Move → List Frame
  | goOn f | halt f => [f]
  | call f callee => [callee, f]
  | leave _ => []

theorem Move.onto_frames (m : Move) (rest : List Frame) : (m.onto rest).1 = m.frames ++ rest := by
  cases m <;> rfl

/-- One move of a body, as far as others can see it. -/
inductive Errand (w : World) : Frame → Option Outcome → World → Move → Prop
  | aside {f : Frame} {ret : Option Outcome} {v : World} {m : Move} (es : List LogEntry) :
      (∀ g ∈ m.frames, g.isPlain = true) → v.registry = w.registry → v.lock = w.lock →
      v.log.history = w.log.history ++ es → (es = [] ∨ (f.Says ∧ ret = none)) → Errand w f ret v m
  | enroll {who : Origin} {found : List Nat} {cur : Option Step} {s : Step} {rest : List Step}
      {t : Test} {v : World} {m : Move} : s.bare.test? = some t → w.registry.register t = .ok v.registry →
      v.lock = w.lock → v.log = w.log → (∀ g ∈ m.frames, g.isPlain = true) →
      Errand w (.steps who found cur (s :: rest)) none v m
  | clear {who : Origin} {found : List Nat} {cur : Option Step} {s : Step} {rest : List Step}
      {v : World} {m : Move} : s.bare = .reset → v.registry = .empty → v.lock = w.lock →
      v.log = w.log → (∀ g ∈ m.frames, g.isPlain = true) →
      Errand w (.steps who found cur (s :: rest)) none v m
  | begin {who : Origin} {found : List Nat} {cur : Option Step} {s : Step} {rest : List Step}
      {tests : List Test} {v : World} : s.bare = .run →
      w.registry.beginRun = .ok (tests, v.registry) → v.lock = w.lock → v.log = w.log →
      Errand w (.steps who found cur (s :: rest)) none v
        (.call (.steps who found (some s) rest) (.pass none tests))
  | load {who : Origin} {found : List Nat} {cur : Option Step} {s : Step} {rest : List Step}
      {path : String} {v : World} : s.bare = .load path → v.registry = w.registry →
      v.lock = w.lock → v.log = w.log →
      Errand w (.steps who found cur (s :: rest)) none v
        (.call (.steps who found (some s) rest) (.load path .arriving))
  | drive {who : Origin} {found : List Nat} {cur : Option Step} {s : Step} {rest : List Step}
      {v : World} {m : Move} : ((∃ p, s.bare = .runPath p) ∨ ∃ ps, s.bare = .runPaths ps) →
      Errand w (.steps who found cur (s :: rest)) none v m

variable {w v : World}

theorem Wait.plain {su : Setup} {s : Step} {f : Frame} (h : Wait su s f) : f.isPlain = true := by cases h <;> rfl

namespace Frame

/-! Bodies and their waits -/

theorem world_stepOver (w : World) (who : Origin) (found : List Nat) (s : Step) (rest : List Step)
    (o : Outcome) : (stepOver w who found s rest o).1.core = w.core ∧
      ((∃ found', (stepOver w who found s rest o).2 = .goOn (.steps who found' none rest)) ∨
        (stepOver w who found s rest o).2 = .leave o) := by
  cases o with
  | value v => exact ⟨rfl, .inl ⟨_, rfl⟩⟩
  | fault f =>
    refine ⟨core_noteFault _ _ _ _, ?_⟩
    simp only [stepOver]
    split_ifs
    · exact .inl ⟨_, rfl⟩
    · exact .inr rfl
  | panic p => exact ⟨rfl, .inr rfl⟩

theorem plain_stepOver (w : World) (who : Origin) (found : List Nat) (s : Step) (rest : List Step)
    (o : Outcome) : ∀ g ∈ (stepOver w who found s rest o).2.frames, g.isPlain = true := by
  rcases (world_stepOver w who found s rest o).2 with ⟨found', h⟩ | h <;> simp [h, Move.frames, isPlain]

theorem errand_still {f : Frame} {ret : Option Outcome} {m : Move} (hv : v.core = w.core)
    (hm : ∀ g ∈ m.frames, g.isPlain = true) : Errand w f ret v m :=
  .aside [] hm (congrArg Core.registry hv) (congrArg Core.lock hv)
    (by rw [show v.log = w.log from congrArg Core.log hv, List.append_nil]) (.inl rfl)

theorem errand_say {f : Frame} {e : LogEntry} {m : Move} (hf : f.Says)
    (hv : v.core = { w.core with log := w.log.append e })
    (hm : ∀ g ∈ m.frames, g.isPlain = true) : Errand w f none v m :=
  .aside [e] hm (congrArg Core.registry hv) (congrArg Core.lock hv)
    (by rw [show v.log = w.log.append e from congrArg Core.log hv, Log.history_append]) (.inr ⟨hf, rfl⟩)

/-- A step of a body, with what came of it. -/
theorem errand_runSteps (su : Setup) (w : World) (who : Origin) (found : List Nat)
    (cur : Option Step) (s : Step) (rest : List Step) :
    Errand w (.steps who found cur (s :: rest)) none (runSteps su w who found (s :: rest)).1
      (runSteps su w who found (s :: rest)).2 := by
  have he := World.begin_effect su found w s
  rcases hb : w.begin su found s with ⟨v, b⟩
  rw [hb] at he
  simp only [runSteps, hb]
  rcases b with o | f
  · obtain ⟨hc, -⟩ := world_stepOver v who found s rest o
    have hp := plain_stepOver v who found s rest o
    dsimp only at he hp ⊢
    generalize stepOver v who found s rest o = p at hc hp
    have hreg : p.1.registry = v.core.registry := congrArg Core.registry hc
    have hlock : p.1.lock = v.core.lock := congrArg Core.lock hc
    have hlog : p.1.log = v.core.log := congrArg Core.log hc
    have silent (h : v.core.log.history = w.log.history) : p.1.log.history = w.log.history ++ [] := by
      rw [hlog, h, List.append_nil]
    generalize hs : s.bare = bare at he
    generalize v.core = k at he hreg hlock hlog silent
    cases he with
    | answer => exact .aside [] hp hreg hlock (silent rfl) (.inl rfl)
    | page => exact .aside [] hp hreg hlock (silent rfl) (.inl rfl)
    | say hsp =>
      exact .aside [_] hp hreg hlock (by rw [hlog, Log.history_append]) (.inr ⟨.inl (hs ▸ hsp), rfl⟩)
    | append => exact .aside [_] hp hreg hlock (by rw [hlog, Log.history_append]) (.inr ⟨.inr ⟨_, _, hs⟩, rfl⟩)
    | drain => exact .aside [] hp hreg hlock (silent w.log.history_drain) (.inl rfl)
    | register ht hg => exact .enroll (hs ▸ ht) (hreg ▸ hg) hlock hlog hp
    | refuse => exact .aside [] hp hreg hlock (silent rfl) (.inl rfl)
    | reset => exact .clear hs hreg hlock hlog hp
    | spawn => exact .aside [] hp hreg hlock (silent rfl) (.inl rfl)
  · have hreg : v.registry = v.core.registry := rfl
    have hlock : v.lock = v.core.lock := rfl
    have hlog : v.log = v.core.log := rfl
    have silent (h : v.core.log.history = w.log.history) : v.log.history = w.log.history ++ [] := by
      rw [hlog, h, List.append_nil]
    have waits (g : Frame) (hg : g.isPlain = true) :
        ∀ g' ∈ (Move.call (.steps who found (some s) rest) g).frames, g'.isPlain = true := by
      intro g' hm
      obtain rfl | rfl : g' = g ∨ g' = .steps who found (some s) rest := by simpa [Move.frames] using hm
      · exact hg
      · rfl
    dsimp only at he ⊢
    generalize hs : s.bare = bare at he
    generalize v.core = k at he hreg hlock hlog silent
    cases he with
    | wait _ hf => exact .aside [] (waits f hf.plain) hreg hlock (silent rfl) (.inl rfl)
    | run hg => exact .begin hs (hreg ▸ hg) hlock hlog
    | load path => exact .load hs hreg hlock hlog
    | join => exact .aside [] (waits _ rfl) hreg hlock (silent rfl) (.inl rfl)
    | abort => exact .aside [] (waits _ rfl) hreg hlock (silent rfl) (.inl rfl)
    | drive => exact .drive (.inl ⟨_, hs⟩)
    | driveAll => exact .drive (.inr ⟨_, hs⟩)

theorem errand_runPoll (w : World) (c : Condition) (msg : String) (wait : WaitOptions) (polls : Nat) :
    Errand w (.poll c msg wait polls) none (runPoll w c msg wait polls).1 (runPoll w c msg wait polls).2 := by
  unfold runPoll
  split
  · exact errand_say trivial rfl (by simp [Move.frames])
  · split
    · exact errand_still rfl (by simp [Move.frames])
    · exact errand_still rfl (by simp [Move.frames])
    · exact errand_say trivial rfl (by simp [Move.frames])
    · split <;> exact errand_still rfl (by simp [Move.frames, isPlain])

theorem errand_runWaitLoad (su : Setup) (w : World) (loaded : Bool) (l : Option Nat) :
    Errand w (.waitLoad loaded l) none (runWaitLoad su w loaded l).1 (runWaitLoad su w loaded l).2 := by
  cases l with
  | none =>
    simp only [runWaitLoad]
    split_ifs <;> exact errand_still rfl (by simp [Move.frames, isPlain])
  | some l =>
    simp only [runWaitLoad]
    split_ifs
    · exact errand_say trivial rfl (by simp [Move.frames])
    · exact errand_say trivial rfl (by simp [Move.frames, isPlain])
    · exact errand_still rfl (by simp [Move.frames, isPlain])

theorem errand_run (su : Setup) (w : World) (self : Nat) {f : Frame} (hf : f.isPlain = true) :
    Errand w f none (f.run su w self).1 (f.run su w self).2 := by
  cases f with
  | steps who found cur rest =>
    cases rest with
    | nil => exact errand_still rfl (by simp [run, runSteps, Move.frames])
    | cons s rest => exact errand_runSteps su w who found cur s rest
  | sleep ms =>
    simp only [run, runSleep]
    split_ifs <;> exact errand_still rfl (by simp [Move.frames, isPlain])
  | pause due =>
    simp only [run, runPause]
    split_ifs <;> exact errand_still rfl (by simp [Move.frames, isPlain])
  | yield yielded =>
    simp only [run, runYield]
    split_ifs <;> exact errand_still rfl (by simp [Move.frames, isPlain])
  | poll c msg wait polls => exact errand_runPoll w c msg wait polls
  | waitLoad loaded l => exact errand_runWaitLoad su w loaded l
  | join task =>
    simp only [run, runJoin]
    split
    · split_ifs <;> exact errand_still rfl (by simp [Move.frames, isPlain])
    · exact errand_still (World.core_waitFor w self task) (by simp [Move.frames, isPlain])
  | _ => simp [isPlain] at hf

theorem errand_resume (w : World) {f : Frame} (o : Outcome) (hf : f.isPlain = true) :
    Errand w f (some o) (f.resume w o).1 (f.resume w o).2 := by
  unfold resume
  split
  · exact errand_still (world_stepOver w _ _ _ _ o).1 (plain_stepOver w _ _ _ _ o)
  · simp [isPlain] at hf
  · simp [isPlain] at hf
  · simp [isPlain] at hf
  · exact errand_still rfl (by simp [Move.frames, isPlain])
  · exact errand_still rfl (by simp [Move.frames, isPlain])
  · exact errand_still rfl (by simp [Move.frames])

/-- What a body does when it has its turn, or when what it waited for is over. -/
theorem errand_act (su : Setup) (w : World) (self : Nat) {f : Frame} (ret : Option Outcome)
    (hf : f.isPlain = true) : Errand w f ret (f.act su w self ret).1 (f.act su w self ret).2 := by
  cases ret with
  | none => exact errand_run su w self hf
  | some o => exact errand_resume w o hf

end Frame

end PageTest
