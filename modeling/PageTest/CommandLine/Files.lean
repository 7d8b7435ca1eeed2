import PageTest.Config.File

/-! A tree of files, as far as the program can tell: what a path leads to, making directories, and writing
a file. Places have numbers, and the root is place 0. A path is followed name by name, so that going up from
somewhere needs a directory there. A change can be refused, and what was done before it stays: some
of the directories, or the first bytes of a file. -/

namespace PageTest.CommandLine

/-- A name in a directory, and what it leads to. -/
structure Entry where
  inside : Nat
  name : String
  content : FileContent

/-- The entry `n` of the list is place `n + 1`. Entries are never taken away, so that a place keeps its
number. -/
structure Files where
  entries : List Entry
  /-- Where paths start that do not start at the root. -/
  here : Nat
  /-- How many more changes are taken, if not any number: a directory, a file that is opened or a byte that is
  written is one each. -/
  room : Option Nat := none

namespace Files

/-- Nothing but the root. -/
def empty : Files := ⟨[], 0, none⟩

def entry? (fs : Files) : Nat → Option Entry
  | 0 => none
  | n + 1 => fs.entries[n]?

def content (fs : Files) (at' : Nat) : FileContent :=
  if at' = 0 then .directory else ((fs.entry? at').map (·.content)).getD .missing

def isDirectory (fs : Files) (at' : Nat) : Bool :=
  match fs.content at' with
  | .directory => true
  | _ => false

/-- The directory that a place is in; the root is in itself. -/
def above (fs : Files) (at' : Nat) : Nat := ((fs.entry? at').map (·.inside)).getD 0

def child? (fs : Files) (at' : Nat) (name : String) : Option Nat :=
  (fs.entries.findIdx? fun e => e.inside == at' && e.name == name).map (· + 1)

/-- Adds a name to a directory that does not have it. -/
def add (fs : Files) (at' : Nat) (name : String) (c : FileContent) : Nat × Files :=
  (fs.entries.length + 1, { fs with entries := fs.entries ++ [⟨at', name, c⟩] })

/-- Has a name of a directory lead to some content. -/
def put (fs : Files) (at' : Nat) (name : String) (c : FileContent) : Files :=
  match fs.child? at' name with
  | some p => { fs with entries := fs.entries.modify (p - 1) fun e => { e with content := c } }
  | none => (fs.add at' name c).2

/-- Takes up the room of one change, if there is any. -/
def spend? (fs : Files) : Option Files :=
  match fs.room with
  | none => some fs
  | some 0 => none
  | some (n + 1) => some { fs with room := some n }

/-- The names of a path between its slashes. -/
def names (path : String) : List String := (path.toList.splitOn '/').map String.ofList

def start (fs : Files) (path : String) : Nat := if path.toList.head? = some '/' then 0 else fs.here

/-- The path of a name in a directory. -/
def join (directory name : String) : String :=
  if directory = "" ∨ directory.toList.getLast? = some '/' then directory ++ name
  else directory ++ "/" ++ name

/-- Whether a path can be followed at all: it is not too long, and no character of it ends it early. -/
def followable (path : String) : Bool := path.utf8ByteSize < 4096 && !path.toList.contains '\x00'

/-- Whether there can be something of that name. -/
def nameable (name : String) : Bool := name.utf8ByteSize ≤ 255

/-- Follows the names of a path. -/
def follow (fs : Files) : Nat → List String → Option Nat
  | at', [] => some at'
  | at', name :: rest =>
    if !fs.isDirectory at' then none
    else if name = "" ∨ name = "." then follow fs at' rest
    else if name = ".." then follow fs (fs.above at') rest
    else match fs.child? at' name with
      | some next => follow fs next rest
      | none => none

def read (fs : Files) (path : String) : FileContent :=
  if path = "" || !followable path then .missing
  else match fs.follow (fs.start path) (names path) with
    | some at' => fs.content at'
    | none => .missing

/-- Whether nothing is left of a path but dots, and there is one. A missing directory cannot be made under
such a path. -/
def endsInDot (rest : List String) : Bool := rest.contains "." && rest.all fun name => name = "" || name = "."

/-- Follows the names of a path and makes the directories that are missing on the way, up to the first that
cannot be made. -/
def makeFrom (fs : Files) : Nat → List String → Files × Option Nat
  | at', [] => (fs, if fs.isDirectory at' then some at' else none)
  | at', name :: rest =>
    if !fs.isDirectory at' then (fs, none)
    else if name = "" ∨ name = "." then makeFrom fs at' rest
    else if name = ".." then makeFrom fs (fs.above at') rest
    else match fs.child? at' name with
      | some next => makeFrom fs next rest
      | none =>
        if endsInDot rest || !nameable name then (fs, none)
        else match fs.spend? with
          | none => (fs, none)
          | some fs =>
            let (next, fs) := fs.add at' name .directory
            makeFrom fs next rest

/-- Makes a directory and those it is in, as far as they are missing; the answer is whether it is there. -/
def makeDirectories (fs : Files) (path : String) : Files × Bool :=
  if path = "" then (fs, true)
  else if !followable path then (fs, false)
  else
    let (fs, made) := fs.makeFrom (fs.start path) (names path)
    (fs, made.isSome)

/-- Whether a name can be given to a file: it does not lead to a directory. -/
def writable (fs : Files) (at' : Nat) (name : String) : Bool :=
  match fs.child? at' name with
  | some p => !fs.isDirectory p
  | none => true

/-- Opens a file for writing: it is there from then on, and empty. -/
def create (fs : Files) (directory name : String) : Option (Nat × Files) :=
  let path := join directory name
  if !followable path || !nameable name then none
  else match fs.follow (fs.start path) (names path).dropLast with
    | none => none
    | some at' =>
      if fs.isDirectory at' && fs.writable at' name then
        fs.spend?.map fun fs => (at', fs.put at' name (.bytes .empty))
      else none

/-- Writes bytes into a file that is open and empty, as far as there is room for them. -/
def fill (fs : Files) (at' : Nat) (name : String) (bytes : ByteArray) : Files × Bool :=
  match fs.room with
  | none => (fs.put at' name (.bytes bytes), true)
  | some n =>
    ({ fs with room := some (n - bytes.size) }.put at' name (.bytes (bytes.extract 0 n)), bytes.size ≤ n)

/-- Writes a file in a directory; the answer is whether all of it could be written. -/
def write (fs : Files) (directory name text : String) : Files × Bool :=
  match fs.create directory name with
  | none => (fs, false)
  | some (at', fs) => fs.fill at' name text.toUTF8

end Files

end PageTest.CommandLine
