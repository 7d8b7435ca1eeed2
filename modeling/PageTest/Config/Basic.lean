import PageTest.Json.Basic

/-! Settings of the harness and of the driver. Every setting has a default, settings nobody knows are
passed over, and whole numbers must fit their fields. The settings are read from a tree that
both configuration files and JSON give. -/

namespace PageTest

/-- Settings before anybody has asked what they mean. -/
inductive Setting where
  | table (fields : List (String × Setting))
  | list (items : List Setting)
  | integer (i : Int)
  | text (s : String)
  /-- A value that fits no setting. -/
  | other
  deriving Repr

namespace Setting

mutual

def ofJson : Json → Setting
  | .object fields => .table (ofFields fields)
  | .list items => .list (ofItems items)
  | .number (.natural n) => .integer n
  | .number (.negative n) => .integer (-n)
  | .text s => .text s
  | _ => .other

def ofItems : List Json → List Setting
  | [] => []
  | a :: rest => ofJson a :: ofItems rest

def ofFields : List (String × Json) → List (String × Setting)
  | [] => []
  | (k, a) :: rest => (k, ofJson a) :: ofFields rest

end

/-- The settings of a table that are wanted, in the order of their names; a list gives them by
position. Unless `lax`, a list must not hold more than is wanted. -/
def pick (lax : Bool) (names : List String) : Setting → Option (List (Option Setting))
  | .table fields => some (names.map fun k => (fields.reverse.find? (·.1 == k)).map (·.2))
  | .list items =>
    if lax || items.length ≤ names.length then
      some ((List.range names.length).map fun i => items[i]?)
    else none
  | _ => none

/-- A natural number that fits into so many bits. -/
def natural? (bits : Nat) : Setting → Option Nat
  | .integer i => if 0 ≤ i ∧ i < Nat.pow 2 bits then some i.toNat else none
  | _ => none

def text? : Setting → Option String
  | .text s => some s
  | _ => none

/-- What is set, or the default where nothing is. -/
def orDefault {α : Type} (read : Setting → Option α) (otherwise : α) : Option Setting → Option α
  | none => some otherwise
  | some s => read s

end Setting

structure WaitDefaults where
  intervalMs : Nat
  maxTries : Nat
  deriving DecidableEq, Repr

namespace WaitDefaults

def default : WaitDefaults := ⟨100, 50⟩

def read (lax : Bool) (s : Setting) : Option WaitDefaults := do
  match ← s.pick lax ["interval_ms", "max_tries"] with
  | [interval, tries] =>
    some ⟨← Setting.orDefault (Setting.natural? 64) default.intervalMs interval,
      ← Setting.orDefault (Setting.natural? 32) default.maxTries tries⟩
  | _ => none

def intervalNanos (w : WaitDefaults) : Nat := w.intervalMs * 1000000

end WaitDefaults

structure HarnessConfig where
  /-- What the path of every script begins with. -/
  pathStart : String
  wait : WaitDefaults
  deriving DecidableEq, Repr

inductive ConfigError where
  | unreadable
  | malformed
  | emptyPathStart
  | noTries
  deriving DecidableEq, Repr

namespace ConfigError

/-- What is said about settings that cannot work; other errors have no text of their own. -/
def message? : ConfigError → Option String
  | emptyPathStart => some "Invalid configuration: path_prefix must not be empty"
  | noTries => some "Invalid configuration: wait.max_tries must be at least 1"
  | _ => none

end ConfigError

namespace HarnessConfig

def default : HarnessConfig := ⟨"tests/webtest/", .default⟩

def read (lax : Bool) (s : Setting) : Option HarnessConfig := do
  match ← s.pick lax ["path_prefix", "wait"] with
  | [start, wait] =>
    some ⟨← Setting.orDefault Setting.text? default.pathStart start,
      ← Setting.orDefault (WaitDefaults.read lax) default.wait wait⟩
  | _ => none

def validate (c : HarnessConfig) : Except ConfigError Unit :=
  if c.pathStart = "" then .error .emptyPathStart
  else if c.wait.maxTries = 0 then .error .noTries
  else .ok ()

end HarnessConfig

structure DriverConfig where
  pollIntervalMs : Nat
  timeoutSecs : Nat
  outputDir : String
  harness : HarnessConfig
  deriving DecidableEq, Repr

namespace DriverConfig

def default : DriverConfig := ⟨50, 60, "test-results", .default⟩

def read (lax : Bool) (s : Setting) : Option DriverConfig := do
  match ← s.pick lax ["poll_interval_ms", "timeout_secs", "output_dir", "harness"] with
  | [poll, timeout, output, harness] =>
    some ⟨← Setting.orDefault (Setting.natural? 64) default.pollIntervalMs poll,
      ← Setting.orDefault (Setting.natural? 64) default.timeoutSecs timeout,
      ← Setting.orDefault Setting.text? default.outputDir output,
      ← Setting.orDefault (HarnessConfig.read lax) default.harness harness⟩
  | _ => none

def pollNanos (c : DriverConfig) : Nat := c.pollIntervalMs * 1000000
def timeoutNanos (c : DriverConfig) : Nat := c.timeoutSecs * 1000000000

end DriverConfig

end PageTest
