import PageTest.Number.Text

/-! JSON values. Numbers keep the form they were given in: a natural number, a negative whole number
or a double. Objects keep their fields in order and may repeat a key; `ofPairs` builds the ones that do
not. -/

namespace PageTest

inductive JsonNumber where
  | natural (n : Nat)
  /-- The number `-n`, for a positive `n`. -/
  | negative (n : Nat)
  | double (x : Binary)
  deriving DecidableEq, Repr

namespace JsonNumber

def ofInt (i : Int) : JsonNumber := if i < 0 then .negative i.natAbs else .natural i.natAbs

/-- Every number as the double nearest to it. -/
def toDouble : JsonNumber → Binary
  | .natural n => Binary.ofRatio .double false n 1
  | .negative n => Binary.ofRatio .double true n 1
  | .double x => x

/-- Two numbers are the same if their doubles are. -/
def same (a b : JsonNumber) : Bool := a.toDouble.same b.toDouble

def text : JsonNumber → String
  | .natural n => toString n
  | .negative n => "-" ++ toString n
  | .double x => x.text .json .double

end JsonNumber

inductive Json where
  | null
  | bool (b : Bool)
  | number (n : JsonNumber)
  | text (s : String)
  /-- Well formed, but no value: a text whose escapes name half a surrogate pair, or an object with such a
  text for a key. -/
  | unpaired
  | list (items : List Json)
  | object (fields : List (String × Json))
  deriving Repr

namespace Json

def nat (n : Nat) : Json := .number (.natural n)

/-- The value a double stands for: there is none for NaN and the infinities. -/
def ofDouble (x : Binary) : Json := if x.isFinite then .number (.double x) else .null

/-- Puts a field at its place in the order of keys, in place of an earlier one of the same key. -/
def insertField (k : String) (v : Json) : List (String × Json) → List (String × Json)
  | [] => [(k, v)]
  | (k', v') :: rest =>
    if k < k' then (k, v) :: (k', v') :: rest
    else if k = k' then (k, v) :: rest
    else (k', v') :: insertField k v rest

/-- An object whose keys are sorted; of two fields with one key the later counts. -/
def ofPairs (pairs : List (String × Json)) : Json :=
  .object (pairs.foldl (fun fields p => insertField p.1 p.2 fields) [])

def lookup (k : String) (fields : List (String × Json)) : Option Json :=
  (fields.find? (·.1 == k)).map (·.2)

mutual

/-- The same shape with the same leaves; numbers are compared as doubles. -/
def same : Json → Json → Bool
  | .null, .null => true
  | .bool a, .bool b => a == b
  | .number a, .number b => a.same b
  | .text a, .text b => a == b
  | .unpaired, .unpaired => true
  | .list a, .list b => sameItems a b
  | .object a, .object b => a.length == b.length && sameFields a b
  | _, _ => false

def sameItems : List Json → List Json → Bool
  | [], [] => true
  | a :: as, b :: bs => same a b && sameItems as bs
  | _, _ => false

/-- Every field of the first object has one of the same key and value in the second. -/
def sameFields : List (String × Json) → List (String × Json) → Bool
  | [], _ => true
  | (k, a) :: as, bs =>
    (match lookup k bs with
      | some b => same a b
      | none => false) && sameFields as bs

end

end Json

end PageTest
