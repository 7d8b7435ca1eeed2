/-! The log of a harness: entries are appended in order, and draining hands out every entry
that no earlier drain handed out. The log remembers what it handed out, so `history` is the
whole append sequence, whatever the drains did. -/

namespace PageTest

inductive LogKind where
  | pass | fail | info | stack | subtest | testStart | testEnd
  deriving DecidableEq, Repr

namespace LogKind

def all : List LogKind := [pass, fail, info, stack, subtest, testStart, testEnd]

/-- The word that stands for a kind in every written form of an entry. -/
def word : LogKind → String
  | pass => "PASS"
  | fail => "FAIL"
  | info => "INFO"
  | stack => "STACK"
  | subtest => "SUBTEST"
  | testStart => "TEST_START"
  | testEnd => "TEST_END"

def ofWord? (s : String) : Option LogKind := all.find? (·.word == s)

/-- Markers bracket a load or open a subtest; the other kinds are results and remarks. -/
def isMarker : LogKind → Bool
  | subtest | testStart | testEnd => true
  | _ => false

/-- What is said about a word that names no kind. -/
def unknown (s : String) : String := "unknown log kind: " ++ s

end LogKind

structure LogEntry where
  kind : LogKind
  message : String
  deriving DecidableEq, Repr

namespace LogEntry

def text (e : LogEntry) : String := e.kind.word ++ " " ++ e.message

end LogEntry

structure Log where
  /-- Entries that a drain has handed out, oldest first. -/
  drained : List LogEntry
  /-- Entries that wait for the next drain, oldest first. -/
  waiting : List LogEntry
  deriving DecidableEq, Repr

namespace Log

def empty : Log := ⟨[], []⟩

def append (l : Log) (e : LogEntry) : Log := { l with waiting := l.waiting ++ [e] }

def appendAll (l : Log) (es : List LogEntry) : Log := { l with waiting := l.waiting ++ es }

def drain (l : Log) : List LogEntry × Log := (l.waiting, ⟨l.drained ++ l.waiting, []⟩)

/-- Every entry ever appended, in order. -/
def history (l : Log) : List LogEntry := l.drained ++ l.waiting

def length (l : Log) : Nat := l.waiting.length

@[simp] theorem history_empty : empty.history = [] := rfl

@[simp] theorem history_append (l : Log) (e : LogEntry) :
    (l.append e).history = l.history ++ [e] := by simp [append, history]

@[simp] theorem history_appendAll (l : Log) (es : List LogEntry) :
    (l.appendAll es).history = l.history ++ es := by simp [appendAll, history]

@[simp] theorem history_drain (l : Log) : l.drain.2.history = l.history := by simp [drain, history]

@[simp] theorem waiting_drain (l : Log) : l.drain.2.waiting = [] := rfl

end Log

end PageTest
