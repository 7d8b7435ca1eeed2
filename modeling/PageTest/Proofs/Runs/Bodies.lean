import PageTest.Proofs.Machine.Moves

/-! Rules for bodies. A rule says of a single step whether it is allowed; a body keeps to it if all of
its steps do, and all that they register or spawn. -/

namespace PageTest

mutual

/-- A step and the tests that it registers keep to a rule, and what it spawns keeps to another. -/
def Step.every (own task : Step → Bool) : Step → Bool
  | .addTest name body early hidden =>
    own (.addTest name body early hidden) && Step.allEvery own task body
  | .spawn body after => own (.spawn body after) && Step.allEvery task task body
  | .attempt s => s.every own task
  | s => own s

def Step.allEvery (own task : Step → Bool) : List Step → Bool
  | [] => true
  | s :: rest => s.every own task && Step.allEvery own task rest

end

namespace Step

variable {own task : Step → Bool}

theorem every_bare (s : Step) : s.bare.every own task = s.every own task := by
  fun_induction bare s
  case case1 s ih => rw [ih, every]
  case case2 => rfl

theorem bare_attempt (s s' : Step) : s.bare ≠ .attempt s' := by
  fun_induction bare s
  case case1 s ih => exact ih
  case case2 s hs => exact hs s'

/-- The step itself is allowed. -/
theorem own_of_every {s : Step} (h : s.every own task = true) : own s.bare = true := by
  rw [← every_bare] at h
  have hs := bare_attempt s
  generalize s.bare = b at h hs
  cases b with
  | addTest => exact (Bool.and_eq_true_iff.1 h).1
  | spawn => exact (Bool.and_eq_true_iff.1 h).1
  | attempt s' => exact absurd rfl (hs s')
  | _ => exact h

/-- What a step registers keeps to its rule. -/
theorem every_test {s : Step} {t : Test} (hinfo : ∀ msg, own (.info msg) = true)
    (h : s.every own task = true) (ht : s.test? = some t) : allEvery own task t.body = true := by
  fun_induction test? s with
  | case1 name body early hidden =>
    obtain rfl := Option.some.inj ht
    exact (Bool.and_eq_true_iff.1 h).2
  | case2 f =>
    obtain rfl := Option.some.inj ht
    simp [allEvery, every, hinfo]
  | case3 s ih => exact ih h ht
  | case4 => simp at ht

end Step

/-! Registries -/

/-- The registered tests keep to a rule. -/
def Registry.Keeps (own task : Step → Bool) (g : Registry Test) : Prop :=
  ∀ t ∈ g.tests, Step.allEvery own task t.body = true

namespace Registry

variable {own task : Step → Bool} {g g' : Registry Test}

theorem Keeps.register {s : Step} {t : Test} (h : g.Keeps own task) (hinfo : ∀ msg, own (.info msg) = true)
    (hs : s.every own task = true) (ht : s.bare.test? = some t) (hg : g.register t = .ok g') : g'.Keeps own task := by
  unfold Registry.register at hg
  split_ifs at hg
  rw [← Except.ok.inj hg]
  intro u hu
  rcases List.mem_append.1 hu with h1 | h1
  · exact h u h1
  · rw [List.mem_singleton.1 h1]
    rw [← Step.every_bare] at hs
    exact Step.every_test hinfo hs ht

theorem tests_beginRun {tests : List Test} (hg : g.beginRun = .ok (tests, g')) : g'.tests = [] := by
  unfold Registry.beginRun at hg
  split_ifs at hg
  rw [← (Prod.mk.inj (Except.ok.inj hg)).2]

theorem Keeps.of_nil (h : g.tests = []) : g.Keeps own task := by simp [Keeps, h]

end Registry

/-! Closed registries -/

/-- Whoever begins a run pass or registers a test is refused, and changes nothing by it. -/
structure World.Refuses (su : Setup) (w : World) : Prop where
  run : ∀ (found : List Nat) (s : Step), s.bare = .run →
    w.begin su found s = (w, .over (.fault (.registry .alreadyRunning)))
  register : ∀ (found : List Nat) (s : Step), s.bare.test?.isSome →
    w.begin su found s = (w, .over (.fault (.registry .closed)))
  load : ∀ (self : Nat) (path : String) (k : Nat),
    Frame.runLoad su w self path (.registering k) =
      (w.append .fail RegistryError.alreadyRunning.message, .goOn (.load path (.running k)))

theorem World.begin_bare (su : Setup) (found : List Nat) (w : World) (s : Step) :
    w.begin su found s = w.begin su found s.bare := by
  fun_induction Step.bare s
  case case1 s ih => rw [World.begin, ih]
  case case2 => rfl

theorem World.refuses_of_running {su : Setup} {w : World} (h : w.registry.state = .running) :
    w.Refuses su where
  run found s hs := by
    rw [begin_bare, hs]
    simp [World.begin, Registry.beginRun, h]
  register found s hs := by
    rw [begin_bare]
    generalize s.bare = b at hs
    fun_induction Step.test? b with
    | case1 => simp [World.begin, World.register, Registry.register, h]
    | case2 => simp [World.begin, World.register, Registry.register, h]
    | case3 b ih => rw [World.begin, ih hs]
    | case4 => simp at hs
  load self path k := by simp [Frame.runLoad, Registry.beginRun, h]

/-! Parts of runs -/

/-- Each act of a run is a step from a world that the run came to. -/
theorem Run.each {su : Setup} {may : Nat → Prop} {w w' : World} {acts : List Act}
    (h : Run su may w acts w') {act : Act} (ha : act ∈ acts) :
    ∃ acts₁ acts₂, acts = acts₁ ++ act :: acts₂ ∧ Run su may w acts₁ act.before ∧
      Next su may act.before act.mover act.after ∧ Run su may act.after acts₂ w' := by
  induction h with
  | start => simp at ha
  | @step acts v v' m hr hn ih =>
    rcases List.mem_append.1 ha with h1 | h1
    · obtain ⟨acts₁, acts₂, rfl, hr₁, hn₁, hr₂⟩ := ih h1
      exact ⟨acts₁, acts₂ ++ [⟨m, v, v'⟩], by simp, hr₁, hn₁, hr₂.step hn⟩
    · obtain rfl := List.mem_singleton.1 h1
      exact ⟨acts, [], rfl, hr, hn, .start⟩

end PageTest
