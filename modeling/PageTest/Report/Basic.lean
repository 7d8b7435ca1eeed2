import PageTest.Log
import PageTest.Time.Timestamp

/-! Reports of one load and of a suite of loads, folded from the entries that a driver drained. A SUBTEST
entry opens a subtest, and the results that follow it are counted for it until the next one. -/

namespace PageTest

inductive RunStatus where
  | passed | failed | loadFailed | timedOut
  deriving DecidableEq, Repr

namespace RunStatus

def word : RunStatus → String
  | passed => "passed"
  | failed => "failed"
  | loadFailed => "load_failed"
  | timedOut => "timed_out"

def ofWord? (s : String) : Option RunStatus := [passed, failed, loadFailed, timedOut].find? (·.word == s)

end RunStatus

structure Subtest where
  name : String
  passed : Nat
  failed : Nat
  /-- Messages of its FAIL entries, oldest first. -/
  failures : List String
  completed : Bool
  deriving DecidableEq, Repr

namespace Subtest

def start (name : String) : Subtest := ⟨name, 0, 0, [], false⟩

/-- The remark with which a test is left. -/
def leaving (name : String) : String := "Leaving test " ++ name

def entering (name : String) : String := "Entering test " ++ name

/-- A subtest after one more entry of its own. -/
def count (s : Subtest) (e : LogEntry) : Subtest :=
  match e.kind with
  | .pass => { s with passed := s.passed + 1 }
  | .fail => { s with failed := s.failed + 1, failures := s.failures ++ [e.message] }
  | .info => if e.message = leaving s.name then { s with completed := true } else s
  | _ => s

end Subtest

/-- What the entries seen so far add up to; the subtest that is open comes first. -/
structure Tally where
  passed : Nat
  failed : Nat
  ended : Bool
  subtests : List Subtest
  deriving DecidableEq, Repr

namespace Tally

def zero : Tally := ⟨0, 0, false, []⟩

def countInOpen (e : LogEntry) : List Subtest → List Subtest
  | [] => []
  | s :: rest => s.count e :: rest

def count (path : String) (t : Tally) (e : LogEntry) : Tally :=
  match e.kind with
  | .subtest => { t with subtests := Subtest.start e.message :: t.subtests }
  | .pass => { t with passed := t.passed + 1, subtests := countInOpen e t.subtests }
  | .fail => { t with failed := t.failed + 1, subtests := countInOpen e t.subtests }
  | .info => { t with subtests := countInOpen e t.subtests }
  | .testEnd => if e.message = path then { t with ended := true } else t
  | .stack | .testStart => t

def ofLogs (path : String) (logs : List LogEntry) : Tally := logs.foldl (count path) zero

/-- A load that ended passed or failed by its results; one that did not was cut off or never ran. -/
def status (t : Tally) (timedOut : Bool) : RunStatus :=
  if t.ended then (if t.failed = 0 then .passed else .failed)
  else if timedOut then .timedOut
  else .loadFailed

end Tally

structure RunReport where
  path : String
  status : RunStatus
  passed : Nat
  failed : Nat
  subtests : List Subtest
  logs : List LogEntry
  startedAt : Timestamp
  durationMs : Nat
  deriving DecidableEq, Repr

namespace RunReport

def ofLogs (path : String) (logs : List LogEntry) (timedOut : Bool) (startedAt : Timestamp)
    (durationMs : Nat) : RunReport :=
  let t := Tally.ofLogs path logs
  ⟨path, t.status timedOut, t.passed, t.failed, t.subtests.reverse, logs, startedAt, durationMs⟩

def success (r : RunReport) : Bool := r.status == .passed

/-- The message of the first FAIL entry. -/
def firstFailure (r : RunReport) : Option String :=
  (r.logs.find? (·.kind == .fail)).map (·.message)

end RunReport

structure SuiteReport where
  total : Nat
  passed : Nat
  failed : Nat
  durationMs : Nat
  results : List RunReport
  deriving DecidableEq, Repr

namespace SuiteReport

def ofResults (results : List RunReport) (durationMs : Nat) : SuiteReport :=
  let passed := results.countP (·.success)
  ⟨results.length, passed, results.length - passed, durationMs, results⟩

def success (s : SuiteReport) : Bool := s.failed == 0

end SuiteReport

end PageTest
