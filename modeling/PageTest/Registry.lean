/-! The registry of tests: an ordered list that is closed while a run is in progress. -/

namespace PageTest

inductive RunState where
  | idle | running | completed | aborted
  deriving DecidableEq, Repr

namespace RunState

def word : RunState → String
  | idle => "idle"
  | running => "running"
  | completed => "completed"
  | aborted => "aborted"

def ofWord? (s : String) : Option RunState := [idle, running, completed, aborted].find? (·.word == s)

end RunState

inductive RegistryError where
  /-- A test was registered during a run. -/
  | closed
  /-- A run was begun during another. -/
  | alreadyRunning
  deriving DecidableEq, Repr

def RegistryError.message : RegistryError → String
  | closed => "Test registry is closed while a run is in progress"
  | alreadyRunning => "A test run is already in progress"

structure Registry (α : Type) where
  tests : List α
  state : RunState
  deriving DecidableEq, Repr

namespace Registry

variable {α : Type}

def empty : Registry α := ⟨[], .idle⟩

def register (r : Registry α) (t : α) : Except RegistryError (Registry α) :=
  if r.state = .running then .error .closed else .ok { r with tests := r.tests ++ [t] }

/-- Hands over every registered test and closes the registry. -/
def beginRun (r : Registry α) : Except RegistryError (List α × Registry α) :=
  if r.state = .running then .error .alreadyRunning else .ok (r.tests, ⟨[], .running⟩)

def finish (_ : Registry α) (outcome : RunState) : Registry α := ⟨[], outcome⟩

def reset (_ : Registry α) : Registry α := empty

end Registry

/-! A test registered without a name is called after the callable that holds its body. -/

namespace TestName

/-- What follows the last double colon, if there is one. -/
def afterLastColons : List Char → Option (List Char)
  | [] => none
  | c :: rest =>
    match afterLastColons rest with
    | some r => some r
    | none =>
      match rest with
      | ':' :: r => if c = ':' then some r else none
      | _ => none

def lastSegment (cs : List Char) : List Char := (afterLastColons cs).getD cs

/-- The last segment of a callable's path, leaving out all that follows the first angle bracket;
a callable without a name of its own, whose segment starts with a brace, gives none. -/
def ofCallable (path : String) : String :=
  match lastSegment (path.toList.takeWhile (· ≠ '<')) with
  | '\x7b' :: _ => ""
  | cs => String.ofList cs

end TestName

/-- How a test appears in diagnostics. -/
def testDebugText (quotedName : String) : String := "TestFn \x7b name: " ++ quotedName ++ " \x7d"

end PageTest
