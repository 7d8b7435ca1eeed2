import PageTest.Proofs.Machine.Moves

/-! A bound on the moves that a stack of frames still has to make when nothing keeps it waiting. What a
script registers counts from the start, as it is run in the end. -/

namespace PageTest

mutual

/-- More than the moves that a step takes, with those of the test that it registers. Steps that load
or drive have no bound, and are left out. -/
def Step.weight (su : Setup) : Step → Nat
  | .addTest _ body _ _ => 5 + Step.weights su body
  | .addFunction _ => 9
  | .waitCond _ _ wait | .waitShown _ _ wait =>
    4 + 4 * (wait.getD (.ofDefaults su.driver.harness.wait)).maxTries
  | .waitLoad => 6
  | .attempt s => s.weight su
  | _ => 4

def Step.weights (su : Setup) : List Step → Nat
  | [] => 0
  | s :: rest => s.weight su + Step.weights su rest

end

def Test.weight (su : Setup) (t : Test) : Nat := 4 + Step.weights su t.body

def Test.weights (su : Setup) (ts : List Test) : Nat := (ts.map (·.weight su)).sum

/-- The steps that the script at a path still has before it. -/
def Catalog.weight (su : Setup) (path : String) : Nat :=
  ((su.catalog.script? path).map fun sc => Step.weights su sc.body).getD 0

def Frame.weight (su : Setup) : Frame → Nat
  | .steps _ _ _ rest => 2 + Step.weights su rest
  | .sleep _ => 3
  | .yield yielded => if yielded then 2 else 3
  | .pause _ | .join _ => 2
  | .poll _ _ wait polls => 2 + 4 * (wait.maxTries - polls)
  | .waitLoad loaded l => (if loaded then 2 else 4) + if l.isNone then 1 else 0
  | .pass _ queue => 2 + Test.weights su queue
  | .load _ (.running _) => 2
  | .load _ (.registering _) => 5
  | .load path (.loading _) => 8 + Catalog.weight su path
  | .load path (.entered _) => 12 + Catalog.weight su path
  | .load path (.queueing _) => 13 + Catalog.weight su path
  | .load path .arriving => 14 + Catalog.weight su path
  | .drive .. | .driveAll .. => 0

/-- A step that takes time leaves a frame above its body. -/
def Begun.weight (su : Setup) : Begun → Nat
  | .over _ => 1
  | .within f => f.weight su + 1

/-- What is handed down a stack is one more move. -/
def Outcome.weight : Option Outcome → Nat
  | none => 0
  | some _ => 1

@[simp] theorem Outcome.weight_none : Outcome.weight none = 0 := rfl

@[simp] theorem Outcome.weight_some (o : Outcome) : Outcome.weight (some o) = 1 := rfl

/-- What a move leaves of the frame that made it. -/
def Move.weight (su : Setup) : Move → Nat
  | .goOn f | .halt f => f.weight su
  | .call f callee => f.weight su + callee.weight su
  | .leave _ => 1

/-- The weight of a stack, with the tests that are registered so far. -/
def stackWeight (su : Setup) (registered : List Test) (stack : List Frame) (ret : Option Outcome) : Nat :=
  Test.weights su registered + (stack.map (·.weight su)).sum + Outcome.weight ret

theorem stackWeight_onto (su : Setup) (registered : List Test) (m : Move) (rest : List Frame) :
    stackWeight su registered (m.onto rest).1 (m.onto rest).2 =
      Test.weights su registered + m.weight su + (rest.map (·.weight su)).sum := by
  cases m <;> simp [stackWeight, Move.onto, Move.weight] <;> omega

variable {su : Setup} {c : Code} {w : World}

theorem Step.weight_bare (su : Setup) (s : Step) : s.bare.weight su = s.weight su := by
  fun_induction Step.bare s
  case case1 s ih => rw [ih, Step.weight]
  case case2 => rfl

theorem Step.four_le_weight (su : Setup) (s : Step) : 4 ≤ s.weight su := by
  fun_induction Step.bare s with
  | case1 s ih => rwa [Step.weight]
  | case2 s h =>
    cases s with
    | attempt s => exact absurd rfl (h s)
    | _ => simp only [Step.weight]; omega

/-- A step that registers a test has more moves before it than the test. -/
theorem Step.weight_test? (su : Setup) {s : Step} {t : Test} (h : s.test? = some t) :
    t.weight su + 1 ≤ s.weight su := by
  fun_induction Step.test? s with
  | case1 name body early hidden =>
    obtain rfl := Option.some.inj h
    simp only [Test.weight, Step.weight]
    omega
  | case2 f =>
    obtain rfl := Option.some.inj h
    simp [Test.weight, Step.weight, Step.weights]
  | case3 s ih => simpa [Step.weight] using ih h
  | case4 => simp at h

theorem Test.weights_append (su : Setup) (ts us : List Test) :
    Test.weights su (ts ++ us) = Test.weights su ts + Test.weights su us := by
  simp [Test.weights]

/-- What a step puts on the stack and into the registry weighs less than the step. -/
theorem Effect.lighter {s : Step} {k : Core} {b : Begun} (h : Effect su w s k b)
    (hs : s.obeys c c.body = true) (hl : c.body.loads = false) :
    Test.weights su k.registry.tests + b.weight su ≤ Test.weights su w.registry.tests + s.weight su := by
  have hfour := s.four_le_weight su
  have hsame : Test.weights su w.core.registry.tests = Test.weights su w.registry.tests := rfl
  cases h with
  | register ht hg =>
    have hmore := Step.weight_test? su ht
    unfold Registry.register at hg
    split_ifs at hg
    obtain rfl := Except.ok.inj hg
    simp only [Test.weights_append, Begun.weight]
    simp only [Test.weights, List.map_cons, List.map_nil, List.sum_cons, List.sum_nil]
    omega
  | reset =>
    simp only [Registry.empty, Begun.weight, Test.weights, List.map_nil, List.sum_nil]
    omega
  | run hg =>
    unfold Registry.beginRun at hg
    split_ifs at hg
    obtain ⟨rfl, rfl⟩ := Prod.mk.inj (Except.ok.inj hg)
    simp only [Begun.weight, Frame.weight, Step.weight, Test.weights, List.map_nil, List.sum_nil]
    omega
  | wait _ hf =>
    cases hf with
    | sleep ms => simp only [Begun.weight, Frame.weight, Step.weight]; omega
    | yield => simp [Begun.weight, Frame.weight, Step.weight]; omega
    | poll _ _ hp =>
      unfold Step.waits? at hp
      split at hp
      · obtain rfl := Option.some.inj hp
        simp only [Begun.weight, Frame.weight, Step.weight]
        omega
      · obtain rfl := Option.some.inj hp
        simp only [Begun.weight, Frame.weight, Step.weight]
        omega
      · simp at hp
    | load => simp [Begun.weight, Frame.weight, Step.weight]; omega
  | load path => simp [Step.obeys, hl] at hs
  | drive _ => simp [Step.obeys, c.drives_body] at hs
  | driveAll _ => simp [Step.obeys, c.drives_body] at hs
  | join _ | abort _ => simp only [Begun.weight, Frame.weight]; omega
  | _ => simp only [Core.spawn, Begun.weight]; omega

namespace World

/-- The world does not keep a frame waiting. -/
def Obliging (w : World) : Frame → Prop
  | .sleep _ | .load _ .arriving => w.allowance ≠ 0
  | .pause due => due ≤ w.now
  | .join t => w.allowance ≠ 0 ∧ (w.ended? t).isSome
  | .waitLoad _ (some l) => w.scene.page.listenerState l = some .fired
  | .load _ (.queueing k) => w.lock.holder = some k
  | _ => True

end World

/-- A frame that has a weight: no body of it loads or drives. -/
def Frame.Homely (c : Code) : Frame → Prop
  | .steps _ _ _ rest => ∀ s ∈ rest, s.obeys c c.body = true
  | .drive .. | .driveAll .. => False
  | _ => True

namespace Frame

variable {f : Frame} {t : Nat}

theorem Obeys.homely {k : Nat} (h : f.Obeys c (.within k)) : f.Homely c := by
  cases f with
  | steps who found cur rest => exact h
  | drive d phase => exact absurd h (by simp [Obeys, Role.manners, c.drives_body])
  | driveAll start rest results => exact absurd h (by simp [Obeys, Role.manners, c.drives_body])
  | _ => trivial

/-- A frame that moves gets lighter, with what is above it and with the registry. -/
def Lightens (su : Setup) (w : World) (f : Frame) (ret : Option Outcome) (p : World × Move) : Prop :=
  Test.weights su p.1.registry.tests + p.2.weight su <
    Test.weights su w.registry.tests + f.weight su + Outcome.weight ret

/-- A body after one of its steps, which weighed something. -/
theorem lightens_stepOver {v : World} {who : Origin} {found : List Nat} {cur : Option Step} {s : Step}
    {steps rest : List Step} {ret : Option Outcome} (o : Outcome)
    (h : Test.weights su v.registry.tests + Step.weights su rest <
      Test.weights su w.registry.tests + Step.weights su steps + Outcome.weight ret) :
    Lightens su w (.steps who found cur steps) ret (stepOver v who found s rest o) := by
  unfold Lightens stepOver
  cases o with
  | value r => simp only [World.note, Move.weight, weight]; omega
  | fault e =>
    dsimp only
    rw [registry_noteFault]
    split_ifs <;> simp only [Move.weight, weight] <;> omega
  | panic q => simp only [Move.weight, weight]; omega

theorem lightens_runSteps (who : Origin) (found : List Nat) (cur : Option Step) {steps : List Step}
    (hs : ∀ s ∈ steps, s.obeys c c.body = true) (hl : c.body.loads = false) :
    Lightens su w (.steps who found cur steps) none (runSteps su w who found steps) := by
  cases steps with
  | nil => simp [Lightens, runSteps, Move.weight, weight, Step.weights]
  | cons s rest =>
    have heffect := (World.begin_effect su found w s).lighter (c := c)
      (by rw [Step.obeys_bare]; exact hs s (by simp)) hl
    rw [Step.weight_bare] at heffect
    rcases hb : w.begin su found s with ⟨v, b⟩
    rw [hb] at heffect
    replace heffect : Test.weights su v.registry.tests + b.weight su ≤
      Test.weights su w.registry.tests + s.weight su := heffect
    simp only [runSteps, hb]
    rcases b with o | f
    · refine lightens_stepOver o ?_
      simp only [Begun.weight, Step.weights, Outcome.weight_none] at heffect ⊢
      omega
    · simp only [Lightens, Begun.weight, Move.weight, weight, Step.weights, Outcome.weight_none] at heffect ⊢
      omega

theorem lightens_runPoll (w : World) (cond : Condition) (msg : String) (wait : WaitOptions) (polls : Nat) :
    Lightens su w (.poll cond msg wait polls) none (runPoll w cond msg wait polls) := by
  unfold runPoll Lightens
  split
  · simp only [World.append, Move.weight, weight]; omega
  · split <;> try (simp only [World.append, Move.weight, weight]; omega)
    split <;> simp only [Move.weight, weight] <;> omega

theorem lightens_runWaitLoad (hd : su.deaf = false) (loaded : Bool) (l : Option Nat)
    (h : w.Obliging (.waitLoad loaded l)) :
    Lightens su w (.waitLoad loaded l) none (runWaitLoad su w loaded l) := by
  cases l with
  | none => cases loaded <;> simp [Lightens, runWaitLoad, hd, Move.weight, weight]
  | some l =>
    have hfired : w.scene.page.listenerState l = some .fired := h
    cases loaded <;> simp [Lightens, runWaitLoad, hfired, World.append, World.spend, Move.weight, weight]

theorem weights_finish (w : World) (st : RunState) : Test.weights su (finish w st).1.registry.tests = 0 := rfl

theorem lightens_runPass (w : World) (cur : Option Test) (queue : List Test) :
    Lightens su w (.pass cur queue) none (runPass w queue) := by
  cases queue with
  | nil =>
    simp only [Lightens, runPass, weights_finish]
    simp only [finish, Move.weight, weight]
    omega
  | cons t queue =>
    have hqueue : Test.weights su (t :: queue) = 4 + Step.weights su t.body + Test.weights su queue := by
      simp [Test.weights, Test.weight]
    unfold runPass Lightens
    dsimp only
    split
    · simp only [abortPass, weights_finish]
      simp only [finish, Move.weight, weight]
      omega
    · simp only [World.append, Move.weight, weight, hqueue]
      omega

theorem lightens_resumePass (w : World) (t : Test) (queue : List Test) (o : Outcome) :
    Lightens su w (.pass (some t) queue) (some o) (resumePass w t queue o) := by
  have aborted (f : Failure) : Lightens su w (.pass (some t) queue) (some o) (abortPass w f) := by
    simp only [Lightens, abortPass, weights_finish]
    simp only [finish, Move.weight, weight]
    omega
  cases o with
  | value v => simp [Lightens, resumePass, World.append, Move.weight, weight]
  | fault f => exact aborted _
  | panic q => exact aborted _

theorem registry_leaveLock (w : World) (k : Nat) : (w.leaveLock k).registry = w.registry :=
  congrArg Core.registry (World.core_leaveLock w k)

theorem two_le_weight_load (su : Setup) (path : String) (phase : LoadPhase) :
    2 ≤ (load path phase).weight su := by
  cases phase <;> simp only [weight] <;> omega

/-- A load that is left. -/
theorem lightens_leaveLoad {v : World} {path : String} {phase : LoadPhase} {ret : Option Outcome}
    (k : Nat) (o : Outcome) (hv : v.registry = w.registry) :
    Lightens su w (.load path phase) ret (leaveLoad v k o) := by
  have := two_le_weight_load su path phase
  simp only [Lightens, leaveLoad, registry_leaveLock, hv, Move.weight]
  omega

theorem lightens_runLoad (self : Nat) (path : String) (phase : LoadPhase)
    (h : w.Obliging (.load path phase)) :
    Lightens su w (.load path phase) none (runLoad su w self path phase) := by
  cases phase with
  | arriving =>
    have ha : w.allowance ≠ 0 := h
    simp only [runLoad, if_neg ha, Lightens, Move.weight, weight]
    omega
  | queueing k =>
    have hh : w.lock.holder = some k := h
    simp only [runLoad, if_pos hh, Lightens, World.spend, Move.weight, weight]
    omega
  | entered k =>
    unfold runLoad
    dsimp only
    split_ifs
    · simp only [Lightens, World.append, Registry.reset, Registry.empty, Test.weights, Move.weight,
        weight, List.map_nil, List.sum_nil]
      omega
    · simp only [Lightens, World.append, Registry.reset, Registry.empty, Test.weights, Move.weight,
        weight, List.map_nil, List.sum_nil]
      omega
    · exact lightens_leaveLoad k _ rfl
  | loading k =>
    unfold runLoad
    dsimp only
    split_ifs
    · exact lightens_leaveLoad k _ rfl
    · cases hf : su.catalog.script? path with
      | none => exact lightens_leaveLoad k _ rfl
      | some sc =>
        have hw : Catalog.weight su path = Step.weights su sc.body := by simp [Catalog.weight, hf]
        simp only [Lightens, Move.weight, weight, hw]
        omega
  | registering k =>
    simp only [runLoad, Registry.beginRun]
    by_cases hs : w.registry.state = .running
    · rw [if_pos hs]
      simp only [Lightens, World.append, Move.weight, weight]
      omega
    · rw [if_neg hs]
      simp only [Lightens, Move.weight, weight, Test.weights, List.map_nil, List.sum_nil]
      omega
  | running k => exact lightens_leaveLoad k _ rfl

theorem lightens_resumeLoad (path : String) (phase : LoadPhase) (o : Outcome) :
    Lightens su w (.load path phase) (some o) (resumeLoad w path phase o) := by
  have two := two_le_weight_load su path phase
  unfold resumeLoad
  split
  · exact lightens_leaveLoad _ _ rfl
  · exact lightens_leaveLoad _ _ rfl
  · simp [Lightens, Move.weight]
  · split
    · exact lightens_leaveLoad _ _ rfl
    · simp only [Lightens, Move.weight]
      omega

/-- What goes on as itself, or is left, with what it was handed. -/
theorem lightens_resume (f : Frame) (o : Outcome) (hf : f.Homely c) :
    Lightens su w f (some o) (f.resume w o) := by
  have again (g : Frame) : Lightens su w g (some o) (w, .goOn g) := by
    simp [Lightens, Move.weight]
  unfold resume
  split
  · exact lightens_stepOver _ (by simp)
  · exact lightens_resumePass _ _ _ _
  · exact lightens_resumeLoad _ _ _
  · exact absurd hf id
  · exact again _
  · exact again _
  · have : 2 ≤ f.weight su := by
      cases f with
      | drive => exact absurd hf id
      | driveAll => exact absurd hf id
      | load path phase => exact two_le_weight_load su path phase
      | yield yielded => cases yielded <;> simp [weight]
      | waitLoad loaded l => cases loaded <;> simp only [weight] <;> split_ifs <;> omega
      | _ => simp [weight]
    simp only [Lightens, Move.weight]
    omega

/-- A frame that is not kept waiting has less before it after each of its moves. -/
theorem lightens_act (self : Nat) (ret : Option Outcome) (hd : su.deaf = false) (hf : f.Homely c)
    (hl : c.body.loads = false) (hw : ret = none → w.Obliging f) :
    Lightens su w f ret (f.act su w self ret) := by
  cases ret with
  | some o => exact lightens_resume f o hf
  | none =>
    have hw : w.Obliging f := hw rfl
    show Lightens su w f none (f.run su w self)
    cases f with
    | steps who found cur rest => exact lightens_runSteps who found cur hf hl
    | sleep ms =>
      have ha : w.allowance ≠ 0 := hw
      simp only [run, runSleep, if_neg ha]
      split_ifs <;> simp [Lightens, World.spend, World.setTimer, Move.weight, weight]
    | pause due =>
      have hdue : due ≤ w.now := hw
      simp [run, runPause, hdue, Lightens, World.spend, Move.weight, weight]
    | yield yielded => cases yielded <;> simp [run, runYield, Lightens, World.standBack, Move.weight, weight]
    | poll cond msg wait polls => exact lightens_runPoll w cond msg wait polls
    | waitLoad loaded l => exact lightens_runWaitLoad hd loaded l hw
    | load path phase => exact lightens_runLoad self path phase hw
    | pass cur queue => exact lightens_runPass w cur queue
    | join task =>
      obtain ⟨ha, how⟩ := hw
      obtain ⟨how, he⟩ := Option.isSome_iff_exists.1 how
      simp [run, runJoin, he, ha, Lightens, World.spend, Move.weight, weight]
    | drive => exact absurd hf id
    | driveAll => exact absurd hf id

end Frame

end PageTest
