import PageTest.Proofs.Runs.Sway

/-! When no run pass is in progress any more. A pass that comes to its end opens the registry again,
with whatever verdict. A pass that is given up with its task does not: the registry stays closed, and
refuses everybody, until a reset. -/

namespace PageTest

/-- Whoever registers a test or begins a run pass gets what they ask for. -/
structure World.Admits (su : Setup) (w : World) : Prop where
  register : ∀ (found : List Nat) (s : Step) (t : Test), s.bare.test? = some t →
    w.begin su found s =
      ({ w with registry := { w.registry with tests := w.registry.tests ++ [t] } }, .over (.value .done))
  run : ∀ (found : List Nat) (s : Step), s.bare = .run →
    w.begin su found s = ({ w with registry := ⟨[], .running⟩ }, .within (.pass none w.registry.tests))
  load : ∀ (self : Nat) (path : String) (k : Nat),
    Frame.runLoad su w self path (.registering k) =
      ({ w with registry := ⟨[], .running⟩ }, .call (.load path (.running k)) (.pass none w.registry.tests))

variable {su : Setup} {may : Nat → Prop} {w w' : World} {acts : List Act}

theorem World.admits_of_open (h : w.registry.state ≠ .running) : w.Admits su where
  register found s t ht := by
    rw [begin_bare]
    generalize s.bare = b at ht
    fun_induction Step.test? b with
    | case1 name body early hidden =>
      obtain rfl := Option.some.inj ht
      simp [World.begin, World.register, Registry.register, h, done]
    | case2 f =>
      obtain rfl := Option.some.inj ht
      simp [World.begin, World.register, Registry.register, h, done]
    | case3 b ih => rw [World.begin, ih ht]
    | case4 => simp at ht
  run found s hs := by
    rw [begin_bare, hs]
    simp [World.begin, Registry.beginRun, h]
  load self path k := by simp [Frame.runLoad, Registry.beginRun, h]

/-- A run pass was given up while the registry was closed, and it has been closed ever since. -/
def Stranded (acts : List Act) : Prop :=
  ∃ acts₁ act acts₂ t, acts = acts₁ ++ act :: acts₂ ∧ act.before.Cuts act.after t ∧
    act.before.registry.state = .running ∧ ∀ b ∈ act :: acts₂, b.after.registry.state = .running

theorem Stranded.snoc {act : Act} (h : Stranded acts) (ha : act.after.registry.state = .running) :
    Stranded (acts ++ [act]) := by
  obtain ⟨acts₁, first, acts₂, t, rfl, hcut, hclosed, hall⟩ := h
  refine ⟨acts₁, first, acts₂ ++ [act], t, by simp, hcut, hclosed, fun b hb => ?_⟩
  rw [← List.cons_append] at hb
  rcases List.mem_append.1 hb with h1 | h1
  · exact hall b h1
  · rwa [List.mem_singleton.1 h1]

namespace Run

theorem seated (hr : Run su may w acts w') (h : w.Seated) : w'.Seated := by
  induction hr with
  | start => exact h
  | step _ hn ih => exact hn.seated ih

/-- A registry that was left closed has been closed up to now. -/
theorem closed_of_stranded (hr : Run su may w acts w') (h : Stranded acts) :
    w'.registry.state = .running := by
  obtain ⟨acts₁, act, acts₂, t, heq, -, -, hall⟩ := h
  cases hr with
  | start => simp at heq
  | @step before v _ mover _ hn =>
    have hlast : (act :: acts₂).getLast? = some ⟨mover, v, w'⟩ := by
      simpa [List.getLast?_append, List.getLast?_cons] using (congrArg List.getLast? heq).symm
    exact hall _ (List.mem_of_getLast? hlast)

/-- As long as the registry is closed, a pass is in progress or one was given up. The begin of a pass
is what closes it, and of all steps only those that give up a task can end a pass and leave it so. -/
theorem pass_or_stranded (hr : Run su may w acts w') (hopen : w.registry.state ≠ .running) (hs : w.Seated)
    (hclosed : w'.registry.state = .running) : 0 < passes w'.frames ∨ Stranded acts := by
  induction hr with
  | start => exact absurd hclosed hopen
  | @step acts v v' m hr hn ih =>
    cases hn.sway (hr.seated hs) with
    | begin _ _ hp => exact .inl hp
    | finish _ hst => exact absurd hclosed hst
    | reset hst => simp [hst, Registry.empty] at hclosed
    | keep hst hle hcut =>
      have hbefore : v.registry.state = .running := hst ▸ hclosed
      rcases ih hbefore with hp | h
      · by_cases hlt : passes v'.frames < passes v.frames
        · obtain ⟨t, hc⟩ := hcut hlt
          exact .inr ⟨acts, _, [], t, rfl, hc, hbefore, by simpa using hclosed⟩
        · exact .inl (by omega)
      · exact .inr (h.snoc hclosed)

end Run

/-- A closed registry without any pass opens with a reset and not before. -/
theorem Next.closed_without_pass {m : Option Nat} {v : World} (hn : Next su may w m v) (hs : w.Seated)
    (hp : passes w.frames = 0) (hclosed : w.registry.state = .running) :
    v.registry = .empty ∨ (v.registry.state = .running ∧ passes v.frames = 0) := by
  cases hn.sway hs with
  | begin h _ _ => exact absurd hclosed h
  | finish h _ => omega
  | reset h => exact .inl h
  | keep hst hle _ => exact .inr ⟨hst.trans hclosed, by omega⟩

/-- Once no run pass is in progress, the registry is open, takes tests and lets a pass begin, unless
the task of a pass was given up in the middle of it and there has been no reset since. Then everybody
is refused, and nothing but a reset changes that. -/
theorem registry_reopens (hopen : w.registry.state ≠ .running) (hs : w.Seated)
    (hr : Run su may w acts w') (hp : passes w'.frames = 0) :
    (¬ Stranded acts → w'.registry.state ≠ .running ∧ w'.Admits su) ∧
      (Stranded acts → w'.registry.state = .running ∧ w'.Refuses su ∧
        ∀ (m : Option Nat) (v : World), Next su may w' m v →
          v.registry = .empty ∨ (v.registry.state = .running ∧ passes v.frames = 0)) := by
  constructor
  · intro h
    have hnot : w'.registry.state ≠ .running := by
      intro hclosed
      rcases hr.pass_or_stranded hopen hs hclosed with h1 | h1
      · omega
      · exact h h1
    exact ⟨hnot, World.admits_of_open hnot⟩
  · intro h
    have hclosed := hr.closed_of_stranded h
    exact ⟨hclosed, World.refuses_of_running hclosed, fun m v hn =>
      hn.closed_without_pass (hr.seated hs) hp hclosed⟩

/-- A run pass sleeps in a task of its own until it is asked to end. -/
def Demo.abandoned : World :=
  world [.steps .hidden [] none
    [.addTest "long" [.info "begun", .sleep 1000] none false, .spawn [.run] 0, .sleep 10, .abort 0]] []

theorem Demo.abandoned_seated : abandoned.Seated := by
  intro a ha
  obtain rfl := List.mem_singleton.1 ha
  exact ⟨rfl, by simp⟩

/-- Before the pass begins the registry is open. After the task of the pass was given up it is closed. -/
theorem registry_reopens_demo :
    passes (Demo.abandoned.afterSteps Demo.setup 5).frames = 0 ∧
      (Demo.abandoned.afterSteps Demo.setup 5).Admits Demo.setup ∧
      passes (Demo.abandoned.afterSteps Demo.setup 20).frames = 0 ∧
      Stranded (Demo.abandoned.actsOf Demo.setup 20) ∧
      (Demo.abandoned.afterSteps Demo.setup 20).Refuses Demo.setup := by
  have hopen : Demo.abandoned.registry.state ≠ .running := by decide
  have hbefore : passes (Demo.abandoned.afterSteps Demo.setup 5).frames = 0 := by decide +kernel
  have hafter : passes (Demo.abandoned.afterSteps Demo.setup 20).frames = 0 := by decide +kernel
  have hidle : (Demo.abandoned.afterSteps Demo.setup 5).registry.state ≠ .running := by decide +kernel
  have hclosed : (Demo.abandoned.afterSteps Demo.setup 20).registry.state = .running := by decide +kernel
  have hrun (n : Nat) : Run Demo.setup (fun _ => False) Demo.abandoned
      (Demo.abandoned.actsOf Demo.setup n) (Demo.abandoned.afterSteps Demo.setup n) :=
    World.run_afterSteps n Demo.abandoned
  have each (n : Nat) := registry_reopens hopen Demo.abandoned_seated (hrun n)
  have hunstranded : ¬ Stranded (Demo.abandoned.actsOf Demo.setup 5) := by
    intro h
    exact hidle ((each 5 hbefore).2 h).1
  have hstranded : Stranded (Demo.abandoned.actsOf Demo.setup 20) := by
    by_contra h
    exact ((each 20 hafter).1 h).1 hclosed
  exact ⟨hbefore, ((each 5 hbefore).1 hunstranded).2, hafter, hstranded, ((each 20 hafter).2 hstranded).2.1⟩

end PageTest
