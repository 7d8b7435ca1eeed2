import PageTest.Json.Writer
import PageTest.Log

/-! Checks of a test: each compares two operands, or looks at a condition, and becomes exactly one entry.
A failed check names both operands. -/

namespace PageTest

inductive Operand where
  | integer (i : Int)
  | double (x : Binary)
  | single (x : Binary)
  | bool (b : Bool)
  | char (c : Char)
  | text (s : String)
  | json (j : Json)
  deriving Repr

namespace Operand

/-- Floats are the same if both are NaN or they are equal with the same sign, JSON values by their
shape and leaves, and all else if it is equal. -/
def same : Operand → Operand → Bool
  | .integer a, .integer b => a == b
  | .double a, .double b => a.same b
  | .single a, .single b => a.same b
  | .bool a, .bool b => a == b
  | .char a, .char b => a == b
  | .text a, .text b => a == b
  | .json a, .json b => a.same b
  | _, _ => false

def shown : Operand → String
  | .integer i => intText i
  | .double x => x.text .plain .double
  | .single x => x.text .plain .single
  | .bool b => if b then "true" else "false"
  | .char c => String.ofList [c]
  | .text s => s
  | .json j => j.render

end Operand

namespace Check

def ok (condition : Bool) (msg : String) : LogEntry := ⟨if condition then .pass else .fail, msg⟩

def is (actual expected : Operand) (msg : String) : LogEntry :=
  if actual.same expected then ⟨.pass, msg⟩
  else ⟨.fail, msg ++ " - Got " ++ actual.shown ++ ", expected " ++ expected.shown⟩

def isnot (actual unexpected : Operand) (msg : String) : LogEntry :=
  if actual.same unexpected then ⟨.fail, msg ++ " - Didn't expect " ++ actual.shown ++ ", but got it"⟩
  else ⟨.pass, msg⟩

def info (msg : String) : LogEntry := ⟨.info, msg⟩

end Check

end PageTest
