import PageTest.Cause
import PageTest.Config.Basic
import PageTest.Page.Basic
import PageTest.Registry
import PageTest.Report.Basic

/-! What a step comes to: a reply, a fault that can be handled, or a panic. -/

namespace PageTest

inductive ListenerReport where
  | pending | fired | closed | gone
  deriving DecidableEq, Repr

namespace ListenerReport

def word : ListenerReport → String
  | pending => "pending"
  | fired => "fired"
  | closed => "closed"
  | gone => "gone"

end ListenerReport

/-- How a task ended, as seen by whoever waited for it. -/
inductive TaskReport where
  | done | failed | cancelled | panicked
  /-- Somebody else has waited for it, or there never was such a task. -/
  | gone
  deriving DecidableEq, Repr

namespace TaskReport

def word : TaskReport → String
  | done => "done"
  | failed => "failed"
  | cancelled => "cancelled"
  | panicked => "panicked"
  | gone => "gone"

end TaskReport

inductive Reply where
  | done
  | handle (h : Nat)
  | count (n : Nat)
  | text (s : String)
  | flag (b : Bool)
  | events (ds : List Dispatch)
  | listener (r : ListenerReport)
  | entries (es : List LogEntry)
  | logSize (n : Nat)
  | state (s : RunState)
  | standing (s : RunState) (pending : Nat)
  | config (c : HarnessConfig)
  | paths (ps : List String)
  | polls (n : Nat)
  | task (r : TaskReport)
  | report (r : RunReport)
  | suite (s : SuiteReport)
  | file (text : String)
  deriving DecidableEq, Repr

inductive Fault where
  | page (e : PageError)
  | registry (e : RegistryError)
  | raised (c : Cause)
  /-- The task that loads a script panicked. -/
  | loadPanicked
  /-- The results cannot be written. -/
  | unwritable
  /-- The step was given up because it took too long. -/
  | stalled
  deriving DecidableEq, Repr

namespace Fault

def cause : Fault → Cause
  | page e => .ofMessage e.message
  | registry e => .ofMessage e.message
  | raised c => c
  | loadPanicked => .ofMessage "Load task failed"
  | unwritable => .ofMessage "The results cannot be written"
  | stalled => .ofMessage "The step was given up"

end Fault

inductive Outcome where
  | value (r : Reply)
  | fault (f : Fault)
  | panic (p : Panic)
  deriving DecidableEq, Repr

namespace Outcome

def ofPage {β : Type} (reply : β → Reply) : Except PageError β → Outcome
  | .ok b => .value (reply b)
  | .error e => .fault (.page e)

end Outcome

end PageTest
