import PageTest.Check
import PageTest.Cause
import PageTest.Config.Basic
import PageTest.Page.Basic

/-! Scripts as data: what registration code, the bodies of tests and tasks, and event handlers do, one
step after another. -/

namespace PageTest

/-- How a step names an element. -/
inductive Place where
  | handle (h : Nat)
  | selector (s : String)
  /-- The target of the event that is being handled. -/
  | target
  /-- The element that the body was the `i`-th to look up. -/
  | found (i : Nat)
  deriving DecidableEq, Repr

/-- What can be done to the page, in a handler as elsewhere. -/
inductive PageStep where
  | add (tag id : String)
  | addChild (parent : Place) (tag id : String)
  | addInput (id : String) (parent : Option Place)
  | addCheckbox (id : String) (parent : Option Place)
  | setDisplay (e : Place) (v : String)
  | display (e : Place)
  | value (e : Place)
  | setValue (e : Place) (v : String)
  | checked (e : Place)
  | setChecked (e : Place) (v : Bool)
  | tag (e : Place)
  | showHandle (e : Place)
  | remove (e : Place)
  | query (selector : String)
  | on (e : Place) (kind : String) (body : List PageStep)
  | dispatch (e : Place) (kind : String) (bubbles : Bool)
  | dispatched
  | fire (target : SignalTarget) (event : String)
  | once (target : SignalTarget) (event : String)
  | listener (i : Nat)
  | dropListener (i : Nat)
  | panic (p : Panic)
  deriving Repr

/-- What a handler does. -/
inductive Action where
  /-- Takes the steps of a body one by one, whatever becomes of each. -/
  | steps (index : Nat) (body : List PageStep)
  /-- Shows a panel if a field is filled, and hides it otherwise. -/
  | reveal (field panel : Nat)
  /-- Has the frame navigate: after a while the signals `load` and `pageshow` are fired. -/
  | navigate
  deriving Repr

/-- What one look at a scripted condition finds. -/
inductive Poll where
  | holds (b : Bool)
  | raises (c : Cause)
  | noMatch (selector : String)
  | panics (p : Panic)
  deriving DecidableEq, Repr

inductive Predicate where
  /-- One outcome a poll; the last one is repeated. -/
  | sequence (polls : List Poll)
  | checked (selector : String)
  | valueIs (selector value : String)
  deriving DecidableEq, Repr

/-- How often a wait looks, and how long it sleeps in between. -/
structure WaitOptions where
  /-- In nanoseconds. -/
  interval : Nat
  maxTries : Nat
  deriving DecidableEq, Repr

namespace WaitOptions

def ofDefaults (w : WaitDefaults) : WaitOptions := ⟨w.intervalNanos, w.maxTries⟩

instance : Coe WaitDefaults WaitOptions := ⟨ofDefaults⟩

instance : Coe (Option WaitDefaults) (Option WaitOptions) := ⟨Option.map ofDefaults⟩

/-- The first number of nanoseconds that no clock can show: its seconds are a signed word. -/
def clockEnd : Nat := Nat.pow 2 63 * 1000000000

/-- The milliseconds that a sleep of the interval takes. A timer counts in whole milliseconds and does not go
off early; what no clock can show is cut to thirty years. -/
def pause (w : WaitOptions) : Nat :=
  if w.interval < clockEnd then (w.interval + 999999) / 1000000 else 30 * 365 * 24 * 60 * 60 * 1000

end WaitOptions

/-- A function that is registered as a test under its own name. -/
structure NamedFunction where
  path : String
  /-- What its body remarks. -/
  remark : String
  deriving DecidableEq, Repr

inductive Step where
  | page (s : PageStep)
  /-- Looks an element up and keeps its handle for later steps. -/
  | find (selector : String)
  | ok (cond : Bool) (msg : String)
  | is (actual expected : Operand) (msg : String)
  | isnot (actual unexpected : Operand) (msg : String)
  | info (msg : String)
  | isDisplay (e : Place) (expected msg : String)
  | isValue (e : Place) (expected msg : String)
  | okChecked (e : Place) (wanted : Bool) (msg : String)
  | append (kind : String) (msg : String)
  | logs
  | logLen
  | setText (e : Place) (text : String)
  | clickCheckbox (e : Place)
  | click (e : Place)
  /-- Registers a test. One with an early panic never gets as far as its body. -/
  | addTest (name : String) (body : List Step) (early : Option Panic) (hidden : Bool)
  | addFunction (f : NamedFunction)
  | reset
  | state
  | config
  | paths
  | contains (path : String)
  | fail (c : Cause)
  | sleep (ms : Nat)
  | yield
  | waitCond (msg : String) (p : Predicate) (wait : Option WaitOptions)
  | waitShown (e : Place) (msg : String) (wait : Option WaitOptions)
  | waitLoad
  | run
  | load (path : String)
  | spawn (body : List Step) (after : Nat)
  | join (task : Nat)
  | abort (task : Nat)
  | runPath (path : String)
  | runPaths (paths : List String)
  | writeResults
  /-- Takes a step and goes on after its fault. -/
  | attempt (s : Step)
  deriving Repr, Inhabited

namespace PageStep

def name : PageStep → String
  | add .. => "add"
  | addChild .. => "add_child"
  | addInput .. => "add_input"
  | addCheckbox .. => "add_checkbox"
  | setDisplay .. => "set_display"
  | display .. => "display"
  | value .. => "value"
  | setValue .. => "set_value"
  | checked .. => "checked"
  | setChecked .. => "set_checked"
  | tag .. => "tag"
  | showHandle .. => "show_handle"
  | remove .. => "remove"
  | query .. => "query"
  | on .. => "on"
  | dispatch .. => "dispatch"
  | dispatched => "dispatched"
  | fire .. => "fire"
  | once .. => "once"
  | listener .. => "listener"
  | dropListener .. => "drop_listener"
  | panic .. => "panic"

end PageStep

namespace Step

def name : Step → String
  | page s => s.name
  | find .. => "query"
  | ok .. => "ok"
  | is .. => "is"
  | isnot .. => "isnot"
  | info .. => "info"
  | isDisplay .. => "is"
  | isValue .. => "is"
  | okChecked .. => "ok"
  | append .. => "append"
  | logs => "logs"
  | logLen => "log_len"
  | setText .. => "set_text"
  | clickCheckbox .. => "click_checkbox"
  | click .. => "click"
  | addTest .. => "add_test"
  | addFunction .. => "add_fn"
  | reset => "reset"
  | state => "state"
  | config => "config"
  | paths => "paths"
  | contains .. => "contains"
  | fail .. => "fail"
  | sleep .. => "sleep"
  | yield => "yield"
  | waitCond .. => "wait_cond"
  | waitShown .. => "wait_shown"
  | waitLoad => "wait_load"
  | run => "run"
  | load .. => "load"
  | spawn .. => "spawn"
  | join .. => "join"
  | abort .. => "abort"
  | runPath .. => "run_path"
  | runPaths .. => "run_paths"
  | writeResults => "write_results"
  | attempt s => s.name

/-- Whether the body goes on after a fault of the step. -/
def tolerant : Step → Bool
  | attempt _ => true
  | _ => false

end Step

/-- A registered test. -/
structure Test where
  name : String
  body : List Step
  early : Option Panic
  /-- Its steps leave no trace. -/
  hidden : Bool
  deriving Repr

/-- A script of the catalog: what it does to register its tests. -/
structure Script where
  path : String
  body : List Step
  hidden : Bool
  deriving Repr

/-- The scripts that can be loaded, by rising path. -/
abbrev Catalog := List Script

namespace Catalog

def insert (s : Script) : Catalog → Catalog
  | [] => [s]
  | s' :: rest =>
    if s.path < s'.path then s :: s' :: rest
    else if s.path = s'.path then s :: rest
    else s' :: insert s rest

def script? (c : Catalog) (path : String) : Option Script := List.find? (·.path == path) c

def paths (c : Catalog) : List String := c.map (·.path)

end Catalog

end PageTest
