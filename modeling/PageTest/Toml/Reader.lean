import PageTest.Toml.Table
import PageTest.Toml.Scalar

/-! Reading a configuration file. A file is a row of lines: headers open tables, the other lines set keys
of the table that is open. -/

namespace PageTest.Toml

/-- A value without parts. A date or time is no setting, yet where a table is wanted it passes for one
that sets nothing. -/
def scalar? (cs : List Char) : Option (Setting × List Char) :=
  match cs with
  | [] => none
  | c :: _ =>
    if c = '"' ∨ c = '\'' then (text? cs).map fun (s, rest) => (.text (String.ofList s), rest)
    else if c = 't' then
      match cs with
      | 't' :: 'r' :: 'u' :: 'e' :: rest => some (.other, rest)
      | _ => none
    else if c = 'f' then
      match cs with
      | 'f' :: 'a' :: 'l' :: 's' :: 'e' :: rest => some (.other, rest)
      | _ => none
    else
      match dateTime? cs with
      | some rest => some (.table [], rest)
      | none =>
        match float? cs with
        | some rest => some (.other, rest)
        | none => (integer? cs).map fun (i, rest) => (.integer i, rest)

mutual

/-- A value; `depth` more arrays and inline tables may be nested in it. -/
def value : Nat → Nat → List Char → Option (Setting × List Char)
  | 0, _, _ => none
  | fuel + 1, depth, cs =>
    match cs with
    | '[' :: rest =>
      match depth with
      | 0 => none
      | depth + 1 => (items fuel depth rest).map fun (vs, rest) => (.list vs, rest)
    | '\x7b' :: rest =>
      match depth with
      | 0 => none
      | depth + 1 =>
        match skipBlanks rest with
        | '\x7d' :: rest => some (.table [], rest)
        | rest =>
          (pairs fuel depth [] rest).map fun (fields, rest) => (.table (Node.toFields fields), rest)
    | _ => scalar? cs

/-- The values of an array, with its closing bracket. A comma may stand after the last. -/
def items : Nat → Nat → List Char → Option (List Setting × List Char)
  | 0, _, _ => none
  | fuel + 1, depth, cs =>
    match skipLines cs.length cs with
    | ']' :: rest => some ([], rest)
    | rest =>
      match value fuel depth rest with
      | none => none
      | some (v, rest) =>
        match skipLines rest.length rest with
        | ',' :: rest => (items fuel depth rest).map fun (vs, rest) => (v :: vs, rest)
        | ']' :: rest => some ([v], rest)
        | _ => none

/-- The keys and values of an inline table, with its closing brace. -/
def pairs : Nat → Nat → Fields → List Char → Option (Fields × List Char)
  | 0, _, _, _ => none
  | fuel + 1, depth, fields, cs =>
    match key? cs with
    | some (path, k, '=' :: rest) =>
      match value fuel depth (skipBlanks rest) with
      | none => none
      | some (v, rest) =>
        match Fields.set path k (.leaf v) .declared fields with
        | none => none
        | some fields =>
          match skipBlanks rest with
          | ',' :: rest => pairs fuel depth fields rest
          | '\x7d' :: rest => some (fields, rest)
          | _ => none
    | _ => none

end

/-- What has been read so far: all tables, and the path of the one that is open. -/
structure Progress where
  fields : Fields
  opened : List String

/-- A header. -/
def header? (cs : List Char) (p : Progress) : Option (Progress × List Char) :=
  match cs with
  | '[' :: rest => do
    let (path, k, rest) ← key? rest
    match rest with
    | ']' :: ']' :: rest =>
      some (⟨← p.fields.addEntry path k, path ++ [k]⟩, ← lineEnd? rest)
    | _ => none
  | _ => do
    let (path, k, rest) ← key? cs
    match rest with
    | ']' :: rest => some (⟨← p.fields.declare path k, path ++ [k]⟩, ← lineEnd? rest)
    | _ => none

/-- A line that sets a key of the open table. -/
def setting? (cs : List Char) (p : Progress) : Option (Progress × List Char) := do
  let (path, k, rest) ← key? cs
  match rest with
  | '=' :: rest =>
    let (v, rest) ← value (3 * rest.length + 3) (depthLimit - 1) (skipBlanks rest)
    let fields ← p.fields.change false (Fields.set path k (.leaf v)) p.opened .declared
    some ({ p with fields }, ← lineEnd? rest)
  | _ => none

def lines : Nat → List Char → Progress → Option Fields
  | 0, _, _ => none
  | fuel + 1, cs, p =>
    match skipBlanks cs with
    | [] => some p.fields
    | '\n' :: rest => lines fuel rest p
    | '\r' :: '\n' :: rest => lines fuel rest p
    | '#' :: rest => (lineEnd? ('#' :: rest)).bind fun rest => lines fuel rest p
    | '[' :: rest => (header? rest p).bind fun (p, rest) => lines fuel rest p
    | rest => (setting? rest p).bind fun (p, rest) => lines fuel rest p

/-- The settings of a file. A byte order mark at its start is passed over. -/
def parse? (s : String) : Option Setting :=
  let cs := match s.toList with
    | '\ufeff' :: rest => rest
    | cs => cs
  (lines (cs.length + 1) cs ⟨[], []⟩).map fun fields => .table (Node.toFields fields)

end PageTest.Toml
