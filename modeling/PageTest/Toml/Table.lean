import PageTest.Config.Basic

/-! The tables of a configuration file while it is read. A table may be declared once by a header; a
longer header or a dotted key brings tables into being that are still open to some additions, and
the rest is a duplicate. -/

namespace PageTest.Toml

/-- How a table came into being. -/
inductive Origin where
  /-- By a header of its own, or as an inline table. -/
  | declared
  /-- By the header of a table inside it. -/
  | implied
  /-- By a dotted key. -/
  | dotted
  deriving DecidableEq, Repr

inductive Node where
  | leaf (s : Setting)
  | table (origin : Origin) (fields : List (String × Node))
  | tables (entries : List (List (String × Node)))
  deriving Repr

abbrev Fields := List (String × Node)

namespace Node

mutual

def toSetting : Node → Setting
  | .leaf s => s
  | .table _ fields => .table (toFields fields)
  | .tables entries => .list (toEntries entries)

def toFields : List (String × Node) → List (String × Setting)
  | [] => []
  | (k, n) :: rest => (k, toSetting n) :: toFields rest

def toEntries : List (List (String × Node)) → List Setting
  | [] => []
  | fields :: rest => .table (toFields fields) :: toEntries rest

end

end Node

namespace Fields

def lookup (k : String) (fields : Fields) : Option Node :=
  (List.find? (·.1 == k) fields).map (·.2)

def put (k : String) (n : Node) : Fields → Fields
  | [] => [(k, n)]
  | (k', n') :: rest => if k = k' then (k, n) :: rest else (k', n') :: put k n rest

/-- Changes the table at the end of a path, making the tables on the way that are missing. A dotted
path does not enter a declared table, and an array of tables stands for its last entry. -/
def change (dotted : Bool) (act : Origin → Fields → Option Fields) :
    List String → Origin → Fields → Option Fields
  | [], origin, fields => act origin fields
  | k :: path, _, fields =>
    match lookup k fields with
    | none => do
      let origin := if dotted then .dotted else .implied
      some (put k (.table origin (← change dotted act path origin [])) fields)
    | some (.leaf _) => none
    | some (.tables entries) =>
      match entries.reverse with
      | [] => none
      | last :: earlier => do
        let last ← change dotted act path .declared last
        some (put k (.tables (last :: earlier).reverse) fields)
    | some (.table origin inner) =>
      if dotted && origin == .declared then none
      else do some (put k (.table origin (← change dotted act path origin inner)) fields)

/-- Sets a key of the table that a dotted path leads to. No key is set twice, and only tables that dotted
keys brought about are filled by dotted keys. -/
def set (path : List String) (k : String) (n : Node) (origin : Origin) (fields : Fields) :
    Option Fields :=
  change true (fun origin fields =>
    if (origin == .dotted) == path.isEmpty then none
    else if (lookup k fields).isSome then none
    else some (fields ++ [(k, n)])) path origin fields

/-- Declares a table. -/
def declare (path : List String) (k : String) (fields : Fields) : Option Fields :=
  change false (fun _ fields =>
    match lookup k fields with
    | none => some (fields ++ [(k, .table .declared [])])
    | some (.table .implied inner) => some (put k (.table .declared inner) fields)
    | some _ => none) path .declared fields

/-- Adds an entry to an array of tables. -/
def addEntry (path : List String) (k : String) (fields : Fields) : Option Fields :=
  change false (fun _ fields =>
    match lookup k fields with
    | none => some (fields ++ [(k, .tables [[]])])
    | some (.tables entries) => some (put k (.tables (entries ++ [[]])) fields)
    | some _ => none) path .declared fields

end Fields

end PageTest.Toml
