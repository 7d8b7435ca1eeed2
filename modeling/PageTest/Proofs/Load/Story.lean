import PageTest.Proofs.Machine.Turn

/-! The story of a load, read off a trace: what it wrote before and while its script registered
tests, what the script came to, the tests it took from the registry, for each test it started what
the body wrote and what it came to, and what it wrote at the end. -/

namespace PageTest

/-- A test that was started: what its body has written, and what it came to if it is over. -/
structure Ran where
  test : Test
  said : List LogEntry
  ending : Option Outcome

namespace Ran

def failed (f : Frame.Failure) : List LogEntry := [⟨.fail, f.message⟩, ⟨.stack, f.stack⟩]

/-- What the run pass wrote after the body. -/
def closing (r : Ran) : List LogEntry :=
  match r.ending with
  | none => []
  | some (.value _) => [⟨.info, Subtest.leaving r.test.name⟩]
  | some (.fault f) => failed (.ofFault f)
  | some (.panic p) => failed (.ofPanic r.test.name p)

def log (r : Ran) : List LogEntry :=
  ⟨.subtest, r.test.name⟩ :: ⟨.info, Subtest.entering r.test.name⟩ :: (r.said ++ r.closing)

def completed (r : Ran) : Bool :=
  match r.ending with
  | some (.value _) => true
  | _ => false

/-- The body returned a fault, or panicked. -/
def raised (r : Ran) : Bool :=
  match r.ending with
  | some (.fault _) | some (.panic _) => true
  | _ => false

end Ran

structure Story where
  opening : List LogEntry
  /-- What was written while the script registered its tests. -/
  registered : List LogEntry
  /-- What the script came to. -/
  registration : Option Outcome
  /-- The tests that the run pass was handed. -/
  taken : List Test
  /-- The tests that were started, the last one first. -/
  ran : List Ran
  /-- What the run pass came to. -/
  verdict : Option RunState
  closing : List LogEntry

namespace Story

def blank : Story := ⟨[], [], none, [], [], none, []⟩

def log (s : Story) : List LogEntry :=
  s.opening ++ s.registered ++ s.ran.reverse.flatMap Ran.log ++ s.closing

/-- The script returned, so its tests are to be run. -/
def Loaded (s : Story) : Prop := ∃ v, s.registration = some (.value v)

/-- What a load has to say about a script that did not return. -/
def loadError (p : String) : Outcome → Option String
  | .value _ => none
  | .fault f => some (Frame.scriptError p f.cause.summary)
  | .panic q => some (Frame.scriptError p ("panicked: " ++ q.text))

/-- The test that was started last has written more. -/
def hear (s : Story) (es : List LogEntry) : Story :=
  match s.ran with
  | [] => s
  | r :: before => { s with ran := { r with said := r.said ++ es } :: before }

/-- The test that was started last is over. -/
def conclude (s : Story) (o : Outcome) : Story :=
  match s.ran with
  | [] => s
  | r :: before => { s with ran := { r with ending := some o } :: before }

theorem conclude_cons {s : Story} {t : Test} {said : List LogEntry} {before : List Ran}
    (h : s.ran = ⟨t, said, none⟩ :: before) (o : Outcome) :
    s.conclude o = { s with ran := ⟨t, said, some o⟩ :: before } := by
  simp [conclude, h]

/-- The story after one more move, made with some frames above the load. -/
def observe (s : Story) (phase : LoadPhase) (inner : List Frame) (ret : Option Outcome)
    (tests : List Test) (es : List LogEntry) : Story :=
  match phase, inner, ret with
  | .entered _, _, _ => { s with opening := s.opening ++ es }
  | .registering _, [], none => { s with taken := tests, closing := s.closing ++ es }
  | .registering _, [], some o => { s with registration := some o, closing := s.closing ++ es }
  | .registering _, _ :: _, _ => { s with registered := s.registered ++ es }
  | .running _, _ :: _ :: _, _ => s.hear es
  | .running _, [.pass none (t :: _)], none =>
      { s with ran := ⟨t, [], t.early.map .panic⟩ :: s.ran }
  | .running _, [.pass (some _) _], some o => s.conclude o
  | .running _, [], some (.value (.state st)) =>
      { s with verdict := some st, closing := s.closing ++ es }
  | _, _, _ => { s with closing := s.closing ++ es }

end Story

/-- Where a task stands within a load: the frames above the load, and how far the load has come. -/
structure Spot where
  inner : List Frame
  path : String
  phase : LoadPhase

/-- The outermost load of a stack. -/
def spot? : List Frame → Option Spot
  | [] => none
  | f :: rest =>
    match spot? rest with
    | some s => some { s with inner := f :: s.inner }
    | none =>
      match f with
      | .load path phase => some ⟨[], path, phase⟩
      | _ => none

theorem spot?_eq_none {stack : List Frame} (h : ∀ f ∈ stack, f.isLoad = false) :
    spot? stack = none := by
  induction stack with
  | nil => rfl
  | cons f rest ih =>
    have hf := h f (by simp)
    simp only [spot?, ih fun g hg => h g (by simp [hg])]
    cases f with
    | load path phase => simp [Frame.isLoad] at hf
    | _ => rfl

theorem spot?_load {inner below : List Frame} {p : String} {phase : LoadPhase}
    (h : ∀ f ∈ below, f.isLoad = false) :
    spot? (inner ++ .load p phase :: below) = some ⟨inner, p, phase⟩ := by
  induction inner with
  | nil => simp [spot?, spot?_eq_none h]
  | cons f rest ih => simp [spot?, ih]

/-- What the mover of an act was in the middle of. -/
def Act.activity? (a : Act) : Option Activity := a.mover.bind fun t => a.before.core.tasks[t]?

namespace Story

def see (s : Story) (a : Act) : Story :=
  match a.activity? with
  | none => s
  | some act =>
    match spot? act.stack with
    | none => s
    | some sp => s.observe sp.phase sp.inner act.returned a.before.registry.tests a.entries

def ofActs (acts : List Act) : Story := acts.foldl see blank

@[simp] theorem ofActs_snoc (acts : List Act) (a : Act) :
    ofActs (acts ++ [a]) = (ofActs acts).see a := by
  simp [ofActs]

end Story

/-- The story of the load that a task is for. -/
def story (t : Nat) (acts : List Act) : Story := .ofActs (acts.filter (·.mover == some t))

theorem story_snoc (t : Nat) (acts : List Act) (a : Act) :
    story t (acts ++ [a]) = if a.mover = some t then (story t acts).see a else story t acts := by
  unfold story
  rw [List.filter_append]
  split_ifs with h <;> simp [h]

end PageTest
