import PageTest.Toml.Reader

/-! Configuration from the text of a file: the text must be well formed, its settings must fit, and
the settings of the harness must be able to work. -/

namespace PageTest

/-- What a path leads to. -/
inductive FileContent where
  | missing
  | directory
  | bytes (b : ByteArray)

/-- The text of a file, if it is one. -/
def FileContent.text? : FileContent → Option String
  | .bytes b => String.fromUTF8? b
  | _ => none

namespace HarnessConfig

def ofText (s : String) : Except ConfigError HarnessConfig :=
  match (Toml.parse? s).bind (HarnessConfig.read true) with
  | none => .error .malformed
  | some c => match c.validate with
    | .error e => .error e
    | .ok () => .ok c

def ofFile (f : FileContent) : Except ConfigError HarnessConfig :=
  match f.text? with
  | none => .error .unreadable
  | some s => ofText s

end HarnessConfig

namespace DriverConfig

def ofText (s : String) : Except ConfigError DriverConfig :=
  match (Toml.parse? s).bind (DriverConfig.read true) with
  | none => .error .malformed
  | some c => match c.harness.validate with
    | .error e => .error e
    | .ok () => .ok c

def ofFile (f : FileContent) : Except ConfigError DriverConfig :=
  match f.text? with
  | none => .error .unreadable
  | some s => ofText s

end DriverConfig

end PageTest
