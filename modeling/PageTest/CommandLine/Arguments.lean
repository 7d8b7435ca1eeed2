import PageTest.Json.Reader

/-! The arguments of the command line. Options come in any order, also between the paths; each of them may be
given once. Arguments are read from left to right, and the first one that is wrong, or that asks
for help or for the version, decides. -/

namespace PageTest.CommandLine

/-- What can be asked for beside the paths. -/
inductive Key where
  | config | output | timeoutSecs | json | list | help | version
  deriving DecidableEq, Repr

namespace Key

def word : Key → String
  | config => "config"
  | output => "output"
  | timeoutSecs => "timeout-secs"
  | json => "json"
  | list => "list"
  | help => "help"
  | version => "version"

def all : List Key := [config, output, timeoutSecs, json, list, help, version]

def ofWord? (s : String) : Option Key := all.find? (·.word == s)

def ofLetter? : Char → Option Key
  | 'c' => some config
  | 'o' => some output
  | 'h' => some help
  | 'V' => some version
  | _ => none

def takesValue : Key → Bool
  | config | output | timeoutSecs => true
  | _ => false

end Key

structure Arguments where
  paths : List String
  config : Option String
  output : Option String
  timeoutSecs : Option Nat
  json : Bool
  list : Bool
  deriving DecidableEq, Repr

def Arguments.empty : Arguments := ⟨[], none, none, none, false, false⟩

/-- What is wrong with an argument. -/
inductive UsageError where
  | unknown (argument : String)
  | valueMissing (k : Key)
  | valueRefused (k : Key) (value : String)
  | valueUnwanted (k : Key)
  | repeated (k : Key)
  deriving DecidableEq, Repr

def UsageError.message : UsageError → String
  | unknown a => "unexpected argument '" ++ a ++ "' found"
  | valueMissing k => "a value is required for '--" ++ k.word ++ "' but none was supplied"
  | valueRefused k v => "invalid value '" ++ v ++ "' for '--" ++ k.word ++ "'"
  | valueUnwanted k => "unexpected value for '--" ++ k.word ++ "' found; no more were expected"
  | repeated k => "the argument '--" ++ k.word ++ "' cannot be used multiple times"

/-- What the arguments ask for. -/
inductive Request where
  | help
  | version
  | run (a : Arguments)
  deriving DecidableEq, Repr

/-- What one argument looks like. -/
inductive Token where
  | path (s : String)
  | key (k : Key) (value : Option String)
  /-- All arguments that follow are paths. -/
  | pathsFollow
  | unknown
  deriving DecidableEq, Repr

/-- The text before the first equals sign, and the text after it if there is one. -/
def splitAtEquals (cs : List Char) : List Char × Option (List Char) :=
  match cs.dropWhile (· ≠ '=') with
  | [] => (cs, none)
  | _ :: value => (cs.takeWhile (· ≠ '='), some value)

/-- A value that stands in the same argument as the letter of its option. -/
def attached : List Char → Option (List Char)
  | [] => none
  | '=' :: value => some value
  | value => some value

def Token.ofArgument (s : String) : Token :=
  match s.toList with
  | ['-', '-'] => .pathsFollow
  | '-' :: '-' :: rest =>
    let (word, value) := splitAtEquals rest
    match Key.ofWord? (String.ofList word) with
    | some k => .key k (value.map String.ofList)
    | none => .unknown
  | '-' :: letter :: rest =>
    match Key.ofLetter? letter with
    | some k => .key k (if k.takesValue then (attached rest).map String.ofList else none)
    | none => .unknown
  | _ => .path s

namespace Arguments

/-- A number of seconds: digits, perhaps after a plus sign. -/
def seconds? (s : String) : Option Nat :=
  let digits := match s.toList with
    | '+' :: rest => rest
    | cs => cs
  if digits.isEmpty || !digits.all Char.isDigit then none
  else
    let n := Json.digitsValue digits
    if n < Nat.pow 2 64 then some n else none

/-- Takes over the value of an option; places in the file system must have a name. -/
def set (a : Arguments) (k : Key) (value : String) : Except UsageError Arguments :=
  match k with
  | .config =>
    if a.config.isSome then .error (.repeated k)
    else if value = "" then .error (.valueRefused k value)
    else .ok { a with config := some value }
  | .output =>
    if a.output.isSome then .error (.repeated k)
    else if value = "" then .error (.valueRefused k value)
    else .ok { a with output := some value }
  | .timeoutSecs =>
    if a.timeoutSecs.isSome then .error (.repeated k)
    else match seconds? value with
      | some n => .ok { a with timeoutSecs := some n }
      | none => .error (.valueRefused k value)
  | k => .error (.valueUnwanted k)

/-- Takes over an option that has no value. -/
def raise (a : Arguments) (k : Key) : Except UsageError Arguments :=
  match k with
  | .json => if a.json then .error (.repeated k) else .ok { a with json := true }
  | .list => if a.list then .error (.repeated k) else .ok { a with list := true }
  | k => .error (.valueMissing k)

/-- Reads the arguments that follow those in `a`; `waiting` is an option whose value has to come next. -/
def read (a : Arguments) (waiting : Option Key) : List String → Except UsageError Request
  | [] =>
    match waiting with
    | some k => .error (.valueMissing k)
    | none => .ok (.run a)
  | s :: rest =>
    match waiting, Token.ofArgument s with
    | some k, .path value =>
      match a.set k value with
      | .ok a => read a none rest
      | .error e => .error e
    | some k, _ => .error (.valueMissing k)
    | none, .path s => read { a with paths := a.paths ++ [s] } none rest
    | none, .pathsFollow => .ok (.run { a with paths := a.paths ++ rest })
    | none, .unknown => .error (.unknown s)
    | none, .key k (some value) =>
      match a.set k value with
      | .ok a => read a none rest
      | .error e => .error e
    | none, .key .help none => .ok .help
    | none, .key .version none => .ok .version
    | none, .key k none =>
      if k.takesValue then read a (some k) rest
      else match a.raise k with
        | .ok a => read a none rest
        | .error e => .error e

end Arguments

/-- What the arguments ask for, with a configuration file from the environment where they name none. -/
def Request.ofArguments (fromEnvironment : Option String) (args : List String) : Except UsageError Request :=
  match Arguments.read .empty none args, fromEnvironment with
  | .ok (.run a), some file =>
    if a.config.isSome then .ok (.run a)
    else match a.set .config file with
      | .ok a => .ok (.run a)
      | .error e => .error e
  | r, _ => r

end PageTest.CommandLine
