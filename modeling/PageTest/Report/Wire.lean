import PageTest.Report.Basic
import PageTest.Json.Reader
import PageTest.Json.Writer

/-! The JSON form of log entries and reports. Every field is written, in a fixed order; reading wants every
field, passes over fields it does not know, and also takes a record as the list of its fields. -/

namespace PageTest

namespace Wire

/-- The fields of a record, in the order of their names. No wanted field may come twice, and a list holds
exactly the wanted ones. -/
def fields? (names : List String) : Json → Option (List Json)
  | .object fields =>
    if names.all fun k => fields.countP (·.1 == k) == 1 then
      names.mapM fun k => Json.lookup k fields
    else none
  | .list items => if items.length = names.length then some items else none
  | _ => none

def text? : Json → Option String
  | .text s => some s
  | _ => none

def nat? : Json → Option Nat
  | .number (.natural n) => some n
  | _ => none

def bool? : Json → Option Bool
  | .bool b => some b
  | _ => none

def list? {α : Type} (read : Json → Option α) : Json → Option (List α)
  | .list items => items.mapM read
  | _ => none

/-- One of a set of words, alone or as the only key of an object. -/
def word? {α : Type} (ofWord? : String → Option α) : Json → Option α
  | .text s => ofWord? s
  | .object [(s, .null)] => ofWord? s
  | _ => none

end Wire

namespace LogEntry

def toJson (e : LogEntry) : Json := .list [.text e.kind.word, .text e.message]

def ofJson? : Json → Option LogEntry
  | .list [kind, message] => do
    some ⟨← Wire.word? LogKind.ofWord? kind, ← Wire.text? message⟩
  | _ => none

end LogEntry

namespace Subtest

def toJson (s : Subtest) : Json := .object [
  ("name", .text s.name),
  ("passed", .nat s.passed),
  ("failed", .nat s.failed),
  ("failures", .list (s.failures.map .text)),
  ("completed", .bool s.completed)]

def ofJson? (j : Json) : Option Subtest := do
  match ← Wire.fields? ["name", "passed", "failed", "failures", "completed"] j with
  | [name, passed, failed, failures, completed] =>
    some ⟨← Wire.text? name, ← Wire.nat? passed, ← Wire.nat? failed,
      ← Wire.list? Wire.text? failures, ← Wire.bool? completed⟩
  | _ => none

end Subtest

namespace RunReport

def toJson (r : RunReport) : Json := .object [
  ("path", .text r.path),
  ("status", .text r.status.word),
  ("passed", .nat r.passed),
  ("failed", .nat r.failed),
  ("subtests", .list (r.subtests.map Subtest.toJson)),
  ("logs", .list (r.logs.map LogEntry.toJson)),
  ("started_at", .text r.startedAt.text),
  ("duration_ms", .nat r.durationMs)]

def ofJson? (j : Json) : Option RunReport := do
  match ← Wire.fields?
      ["path", "status", "passed", "failed", "subtests", "logs", "started_at", "duration_ms"] j with
  | [path, status, passed, failed, subtests, logs, startedAt, duration] =>
    some ⟨← Wire.text? path, ← Wire.word? RunStatus.ofWord? status, ← Wire.nat? passed,
      ← Wire.nat? failed, ← Wire.list? Subtest.ofJson? subtests, ← Wire.list? LogEntry.ofJson? logs,
      ← (Wire.text? startedAt).bind Timestamp.parse?, ← Wire.nat? duration⟩
  | _ => none

end RunReport

namespace SuiteReport

def toJson (s : SuiteReport) : Json := .object [
  ("total", .nat s.total),
  ("passed", .nat s.passed),
  ("failed", .nat s.failed),
  ("duration_ms", .nat s.durationMs),
  ("results", .list (s.results.map RunReport.toJson))]

def ofJson? (j : Json) : Option SuiteReport := do
  match ← Wire.fields? ["total", "passed", "failed", "duration_ms", "results"] j with
  | [total, passed, failed, duration, results] =>
    some ⟨← Wire.nat? total, ← Wire.nat? passed, ← Wire.nat? failed, ← Wire.nat? duration,
      ← Wire.list? RunReport.ofJson? results⟩
  | _ => none

/-- The text of a results file. -/
def fileText (s : SuiteReport) : String := s.toJson.pretty

end SuiteReport

end PageTest
