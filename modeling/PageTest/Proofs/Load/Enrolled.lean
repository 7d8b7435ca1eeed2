import PageTest.Proofs.Load.Task

/-! The tests that a load takes are those that its script registers, in order, when nobody else
touches the registry and bodies neither run nor reset nor load anything themselves. -/

namespace PageTest

/-- The tests that a script registers. -/
def Script.tests (s : Script) : List Test := s.body.filterMap Step.test?

/-- A code under which only scripts touch the registry, by registering tests. -/
structure Code.Steady (c : Code) : Prop where
  runs : c.body.runs = false
  loads : c.body.loads = false
  resets : c.body.resets = false
  task_resets : c.task.resets = false
  task_registers : c.task.registers = false

/-- Frames that a body waits in. -/
def Frame.isWait : Frame → Bool
  | .sleep _ | .pause _ | .yield _ | .poll .. | .waitLoad .. | .join _ => true
  | _ => false

theorem Step.test?_bare (s : Step) : s.bare.test? = s.test? := by
  fun_induction Step.bare s
  case case1 s ih => rw [ih, Step.test?]
  case case2 => rfl

/-- How far a script has come: what it has registered, and what it is still to register. -/
inductive Enrolling (tests : List Test) (reg : List Test) : List Frame → Option Outcome → Prop
  | going (front : List Frame) {who : Origin} {found : List Nat} {cur : Option Step}
      {rest : List Step} {ret : Option Outcome} : (∀ f ∈ front, f.isWait = true) →
      reg ++ rest.filterMap Step.test? = tests →
      Enrolling tests reg (front ++ [.steps who found cur rest]) ret
  | done {ret : Option Outcome} : reg = tests → Enrolling tests reg [] ret
  | failed {o : Outcome} : (∀ v, o ≠ .value v) → Enrolling tests reg [] (some o)

variable {su : Setup} {c : Code} {k self : Nat} {w : World} {tests : List Test}

theorem Enrolling.of_nil {reg : List Test} {ret : Option Outcome} (h : Enrolling tests reg [] ret) :
    reg = tests ∨ ∃ o, ret = some o ∧ ∀ v, o ≠ .value v := by
  generalize hs : ([] : List Frame) = stack at h
  cases h with
  | going => simp at hs
  | done h => exact .inl h
  | failed h => exact .inr ⟨_, rfl, h⟩

/-- A step registers its test, if it has one. -/
theorem Effect.enrolls {s : Step} {q : Core} {b : Begun} (h : Effect su w s q b)
    (hs : s.obeys c ((Role.within k).manners c) = true) (hc : c.Steady)
    (hst : w.registry.state ≠ .running) :
    q.registry.tests = w.registry.tests ++ s.test?.toList ∧ ∀ f, b = .within f →
      f.isWait = true := by
  have hd : (Role.within k).manners c = c.body := rfl
  rw [hd] at hs
  cases h with
  | answer o ht => simp [ht, World.core]
  | page o ht _ => simp [ht, World.core, Core.spawn]
  | say _ ht _ => simp [ht, World.core]
  | append _ => simp [Step.test?, World.core]
  | drain => simp [Step.test?, World.core]
  | register ht hg =>
    unfold Registry.register at hg
    rw [if_neg hst] at hg
    obtain rfl := Except.ok.inj hg
    simp [ht]
  | refuse ht hg =>
    unfold Registry.register at hg
    rw [if_neg hst] at hg
    simp at hg
  | reset => simp [Step.obeys, hc.resets] at hs
  | wait ht hf =>
    refine ⟨by simp [ht, World.core], fun f hb => ?_⟩
    obtain rfl := Begun.within.inj hb
    cases hf <;> rfl
  | run _ => simp [Step.obeys, hc.runs] at hs
  | load path => simp [Step.obeys, hc.loads] at hs
  | spawn => simp [Step.test?, World.core, Core.spawn]
  | join _ => simp [Step.test?, World.core, Frame.isWait]
  | abort _ => simp [Step.test?, World.core, Frame.isWait]
  | drive _ => simp [Step.obeys, c.drives_body] at hs
  | driveAll paths => simp [Step.obeys, c.drives_body] at hs

/-- A move after which there is nothing on top but frames that wait. -/
def Move.Idle : Move → Prop
  | goOn f | halt f => f.isWait = true
  | call f callee => f.isWait = true ∧ callee.isWait = true
  | leave _ => True

theorem Move.Idle.onto {m : Move} (h : m.Idle) (below : List Frame) :
    ∃ front ret, m.onto below = (front ++ below, ret) ∧ ∀ f ∈ front, f.isWait = true := by
  cases m with
  | goOn f => exact ⟨[f], none, rfl, by simpa [Move.Idle] using h⟩
  | halt f => exact ⟨[f], none, rfl, by simpa [Move.Idle] using h⟩
  | call f callee => exact ⟨[callee, f], none, rfl, by simpa [Move.Idle, and_comm] using h⟩
  | leave o => exact ⟨[], some o, rfl, by simp⟩

namespace Frame

theorem run_wait {f : Frame} (hf : f.isWait = true) :
    (f.run su w self).1.registry = w.registry ∧ (f.run su w self).2.Idle := by
  cases f with
  | sleep ms => simp only [run, runSleep]; split_ifs <;> exact ⟨rfl, by trivial⟩
  | pause due => simp only [run, runPause]; split_ifs <;> exact ⟨rfl, by trivial⟩
  | yield yielded => simp only [run, runYield]; split_ifs <;> exact ⟨rfl, by trivial⟩
  | poll c msg wait polls =>
    simp only [run, runPoll]
    split
    · exact ⟨rfl, trivial⟩
    · split
      · exact ⟨rfl, trivial⟩
      · exact ⟨rfl, trivial⟩
      · exact ⟨rfl, trivial⟩
      · split
        · exact ⟨rfl, rfl, rfl⟩
        · exact ⟨rfl, rfl⟩
  | waitLoad loaded l =>
    cases l with
    | none => simp only [run, runWaitLoad]; split_ifs <;> exact ⟨rfl, rfl⟩
    | some l => simp only [run, runWaitLoad]; split_ifs <;> exact ⟨rfl, by trivial⟩
  | join task =>
    simp only [run, runJoin]
    split
    · split_ifs <;> exact ⟨rfl, by trivial⟩
    · exact ⟨congrArg Core.registry (World.core_waitFor w self task), rfl⟩
  | _ => simp [isWait] at hf

theorem resume_wait {f : Frame} (o : Outcome) (hf : f.isWait = true) :
    (f.resume w o).1.registry = w.registry ∧ (f.resume w o).2.Idle := by
  unfold resume
  split
  · simp [isWait] at hf
  · simp [isWait] at hf
  · simp [isWait] at hf
  · simp [isWait] at hf
  · simp [isWait] at hf
  · exact ⟨rfl, rfl⟩
  · exact ⟨rfl, trivial⟩

/-- A frame that waits leaves the registry alone, and goes on waiting until it is left. -/
theorem act_wait (su : Setup) (w : World) (self : Nat) {f : Frame} (ret : Option Outcome)
    (hf : f.isWait = true) : (f.act su w self ret).1.registry = w.registry ∧
    (f.act su w self ret).2.Idle := by
  cases ret with
  | none => exact run_wait hf
  | some o => exact resume_wait o hf

/-- A body has taken a step. -/
theorem enrolling_stepOver (w : World) (who : Origin) (found : List Nat) (s : Step)
    {reg : List Test} {rest : List Step} (o : Outcome)
    (h : reg ++ rest.filterMap Step.test? = tests) :
    (stepOver w who found s rest o).1.registry = w.registry ∧
      Enrolling tests reg ((stepOver w who found s rest o).2.onto []).1 ((stepOver w who found s rest o).2.onto []).2 := by
  cases o with
  | value v => exact ⟨rfl, .going [] (by simp) h⟩
  | fault f =>
    refine ⟨registry_noteFault w who s f, ?_⟩
    simp only [stepOver]
    split_ifs
    · exact .going [] (by simp) h
    · exact .failed (by simp)
  | panic q => exact ⟨rfl, .failed (by simp)⟩

/-- A move of a script that registers its tests. -/
theorem enrolling_act {f : Frame} {deep : List Frame} {ret : Option Outcome}
    (h : Enrolling tests w.registry.tests (f :: deep) ret)
    (ho : Orderly c (.within k) (f :: deep) ret) (hc : c.Steady) (hst : w.registry.state ≠ .running) :
    Enrolling tests (f.act su w self ret).1.registry.tests ((f.act su w self ret).2.onto deep).1
      ((f.act su w self ret).2.onto deep).2 := by
  generalize hstack : f :: deep = stack at h
  cases h with
  | done => simp at hstack
  | failed => simp at hstack
  | @going front who found cur rest _ hfront htests =>
    cases front with
    | cons g front =>
      obtain ⟨rfl, rfl⟩ := List.cons.inj hstack
      obtain ⟨hreg, hidle⟩ := act_wait su w self ret (hfront f (by simp))
      obtain ⟨more, ret', hm, hmore⟩ := hidle.onto (front ++ [.steps who found cur rest])
      rw [List.append_eq, hm, hreg, ← List.append_assoc]
      refine .going _ (fun g hg => ?_) htests
      rcases List.mem_append.1 hg with h1 | h1
      · exact hmore g h1
      · exact hfront g (by simp [h1])
    | nil =>
      obtain ⟨rfl, rfl⟩ := List.cons.inj hstack
      cases ret with
      | some o =>
        cases cur with
        | some s =>
          obtain ⟨hreg, he⟩ := enrolling_stepOver w who found s o htests
          exact (show (stepOver w who found s rest o).1.registry = w.registry from hreg) ▸ he
        | none =>
          cases o with
          | value v => exact .going [] (by simp) htests
          | fault f => exact .failed (by simp)
          | panic q => exact .failed (by simp)
      | none =>
        cases rest with
        | nil => exact .done (show w.registry.tests = tests by simpa using htests)
        | cons s rest =>
          have he := World.begin_effect su found w s
          have hs : s.bare.obeys c ((Role.within k).manners c) = true := by
            rw [Step.obeys_bare]
            exact ho.1 s (by simp)
          obtain ⟨hreg, hwait⟩ := he.enrolls hs hc hst
          rcases hbeg : w.begin su found s with ⟨v, b⟩
          rw [hbeg] at hreg hwait
          have hv : v.registry.tests ++ rest.filterMap Step.test? = tests := by
            rw [show v.registry.tests = w.registry.tests ++ s.bare.test?.toList from hreg,
              Step.test?_bare, ← htests]
            cases ht : s.test? <;> simp [ht]
          rcases b with o | f
          · obtain ⟨hreg', he'⟩ := enrolling_stepOver v who found s o hv
            show Enrolling tests (runSteps su w who found (s :: rest)).1.registry.tests
              ((runSteps su w who found (s :: rest)).2.onto []).1 ((runSteps su w who found (s :: rest)).2.onto []).2
            simp only [runSteps, hbeg]
            rw [hreg']
            exact he'
          · show Enrolling tests (runSteps su w who found (s :: rest)).1.registry.tests
              ((runSteps su w who found (s :: rest)).2.onto []).1 ((runSteps su w who found (s :: rest)).2.onto []).2
            simp only [runSteps, hbeg]
            exact .going [f] (by simpa using hwait f rfl) hv

end Frame

/-! The whole load -/

namespace Story

theorem taken_running (s : Story) (k : Nat) (inner : List Frame) (ret : Option Outcome)
    (tests : List Test) (es : List LogEntry) :
    (s.observe (.running k) inner ret tests es).taken = s.taken := by
  unfold observe
  split
  case h_1 | h_2 | h_3 | h_4 => rename_i h; simp at h
  · unfold hear; split <;> rfl
  · rfl
  · unfold conclude; split <;> rfl
  · rfl
  · rfl

end Story

/-- What a load has of its tests at each place on its way. -/
def Enrolled (tests : List Test) (s : Story) (reg : List Test) : LoadPhase → List Frame →
    Option Outcome → Prop
  | .loading _, _, _ => reg = []
  | .registering _, inner, ret => Enrolling tests reg inner ret
  | .running _, _, _ => s.taken = tests
  | _, _, _ => True

/-- After a move of the task that a load is in: it goes on, or it is over. -/
inductive Enlists (tests : List Test) (p : String) (s : Story) (below rest : List Frame) :
    World × Move → Prop
  | on {v : World} {m : Move} (phase : LoadPhase) (inner : List Frame) (ret : Option Outcome) :
      m.onto rest = (inner ++ .load p phase :: below, ret) →
      Enrolled tests s v.registry.tests phase inner ret →
      Enlists tests p s below rest (v, m)
  | off {v : World} {o : Outcome} : rest = below → Enlists tests p s below rest (v, .leave o)

namespace Doing

variable {p : String} {s s' : Story} {below rest : List Frame}

/-- The loader takes its time. -/
theorem enlists_delayed {inner : List Frame} {ret : Option Outcome} {f : Frame}
    (h : Delay inner ret) (he : w.registry.tests = [])
    (hf : inner ++ .load p (.loading k) :: below = f :: rest) :
    Enlists tests p s below rest (f.act su w self ret) := by
  cases h with
  | sleep ms =>
    obtain ⟨rfl, rfl⟩ := List.cons.inj hf
    simp only [Frame.act, Frame.run, Frame.runSleep]
    split_ifs
    · exact .on (.loading k) [.sleep ms] none rfl he
    · exact .on (.loading k) [] _ rfl he
    · exact .on (.loading k) [.pause _] none rfl he
  | pause due =>
    obtain ⟨rfl, rfl⟩ := List.cons.inj hf
    simp only [Frame.act, Frame.run, Frame.runPause]
    split_ifs
    · exact .on (.loading k) [] _ rfl he
    · exact .on (.loading k) [.pause due] none rfl he
  | past =>
    obtain ⟨rfl, rfl⟩ := List.cons.inj hf
    exact .on (.loading k) [] none rfl he

/-- The script is looked up; it has its tests still before it. -/
theorem enlists_loading (su : Setup) (self : Nat) (he : w.registry.tests = [])
    (hsc : ∀ sc, su.catalog.script? p = some sc → sc.tests = tests) :
    Enlists tests p s below below (Frame.runLoad su w self p (.loading k)) := by
  simp only [Frame.runLoad]
  split_ifs
  · exact .off rfl
  · cases hcat : su.catalog.script? p with
    | none => exact .off rfl
    | some sc =>
      refine .on (.registering k) [.steps _ [] none sc.body] none rfl (.going [] (by simp) ?_)
      rw [show w.registry.tests = [] from he, List.nil_append]
      exact hsc sc hcat

/-- The script is over. -/
theorem enlists_registered (o : Outcome) (he : Enrolling tests w.registry.tests [] (some o)) :
    Enlists tests p s below below (Frame.resumeLoad w p (.registering k) o) := by
  cases o with
  | value v =>
    refine .on (.registering k) [] none rfl ?_
    rcases he.of_nil with h | ⟨o, ho, h⟩
    · exact .done h
    · exact absurd (Option.some.inj ho).symm (h v)
  | fault f => exact .off rfl
  | panic q => exact .off rfl

/-- The run pass takes what was registered. -/
theorem enlists_ready (su : Setup) (self : Nat) (he : Enrolling tests w.registry.tests [] none)
    (hs : w.registry.state ≠ .running) (ht : s.taken = w.registry.tests) :
    Enlists tests p s below below (Frame.runLoad su w self p (.registering k)) := by
  have htests : w.registry.tests = tests := by
    rcases he.of_nil with h | ⟨o, ho, -⟩
    · exact h
    · simp at ho
  simp only [Frame.runLoad, Registry.beginRun]
  rw [if_neg hs]
  exact .on (.running k) [.pass none w.registry.tests] none rfl (ht.trans htests)

/-- One move of the task that a load is in. -/
theorem enrolled (self : Nat) {phase : LoadPhase} {inner : List Frame}
    {ret : Option Outcome} {f : Frame}
    (es : List LogEntry) (hd : Doing su c p s phase inner ret)
    (he : Enrolled tests s w.registry.tests phase inner ret)
    (hg : Grounded c w.core phase) (hc : c.Steady)
    (hsc : ∀ sc, su.catalog.script? p = some sc → sc.tests = tests)
    (hf : inner ++ .load p phase :: below = f :: rest) :
    Enlists tests p (s.observe phase inner ret w.registry.tests es) below rest (f.act su w self ret) := by
  cases hd with
  | arriving =>
    obtain ⟨rfl, rfl⟩ := List.cons.inj hf
    simp only [Frame.act, Frame.run, Frame.runLoad]
    split_ifs
    · exact .on .arriving [] none rfl trivial
    · exact .on (.queueing (w.lock.arrive self).1) [] none rfl trivial
  | queueing k =>
    obtain ⟨rfl, rfl⟩ := List.cons.inj hf
    simp only [Frame.act, Frame.run, Frame.runLoad]
    split_ifs
    · exact .on (.entered k) [] none rfl trivial
    · exact .on (.queueing k) [] none rfl trivial
  | entered k =>
    obtain ⟨rfl, rfl⟩ := List.cons.inj hf
    simp only [Frame.act, Frame.run, Frame.runLoad]
    split_ifs
    · exact .on (.loading k) [] none rfl rfl
    · exact .on (.loading k) [.sleep su.loader.delayMs] none rfl rfl
    · exact .off rfl
  | delayed k hs hdelay => exact enlists_delayed hdelay he hf
  | loading k hs =>
    obtain ⟨rfl, rfl⟩ := List.cons.inj hf
    exact enlists_loading su self he hsc
  | @registering s k inner ret ho hr hn hb hret =>
    have hst : w.registry.state ≠ .running := hg.2.2 hc.runs
    cases inner with
    | cons g deep =>
      obtain ⟨rfl, rfl⟩ := List.cons.inj hf
      exact .on (.registering k) _ _ (Move.onto_append _ _ _) (Frame.enrolling_act he hb hc hst)
    | nil =>
      obtain ⟨rfl, rfl⟩ := List.cons.inj hf
      obtain ⟨o, rfl⟩ := Option.isSome_iff_exists.1 (hret rfl)
      exact enlists_registered o he
  | registered ho hr hl =>
    obtain ⟨rfl, rfl⟩ := List.cons.inj hf
    exact enlists_ready su self he (hg.2.2 hc.runs) rfl
  | @passing s k queue ho hl hp hq =>
    obtain ⟨rfl, rfl⟩ := List.cons.inj hf
    exact .on (.running k) _ _ (Move.onto_append _ [] _) ((s.taken_running ..).trans he)
  | @testing s k t queue deep _ ho hl ht hq hb hret =>
    cases deep with
    | nil =>
      obtain ⟨rfl, rfl⟩ := List.cons.inj hf
      exact .on (.running k) _ _ (Move.onto_append _ [] _) ((s.taken_running ..).trans he)
    | cons g deep =>
      obtain ⟨rfl, rfl⟩ := List.cons.inj hf
      exact .on (.running k) _ _ (Move.onto_append _ _ _) ((s.taken_running ..).trans he)
  | @passed s k st ho hl hp =>
    obtain ⟨rfl, rfl⟩ := List.cons.inj hf
    exact .on (.running k) [] none rfl ((s.taken_running ..).trans he)
  | closing ho hl hp =>
    obtain ⟨rfl, rfl⟩ := List.cons.inj hf
    exact .off rfl
  | refused ho hr hl hruns =>
    obtain ⟨rfl, rfl⟩ := List.cons.inj hf
    exact .off rfl

end Doing

end PageTest
