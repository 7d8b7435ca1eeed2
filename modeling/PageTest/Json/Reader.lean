import PageTest.Json.Basic

/-! Reading JSON text. `parse?` accepts exactly one value with blanks around it. The readers take the
characters that are left and return what they read with the rest; `value` counts down a bound that the
length of the text meets. -/

namespace PageTest.Json

def isBlank (c : Char) : Bool := c = ' ' || c = '\t' || c = '\n' || c = '\r'

def skipBlanks (cs : List Char) : List Char := cs.dropWhile isBlank

def hexValue? (c : Char) : Option Nat :=
  if '0' ≤ c ∧ c ≤ '9' then some (c.toNat - '0'.toNat)
  else if 'a' ≤ c ∧ c ≤ 'f' then some (c.toNat - 'a'.toNat + 10)
  else if 'A' ≤ c ∧ c ≤ 'F' then some (c.toNat - 'A'.toNat + 10)
  else none

/-- Four hexadecimal digits. -/
def codeUnit? : List Char → Option (Nat × List Char)
  | a :: b :: c :: d :: rest => do
    let a ← hexValue? a
    let b ← hexValue? b
    let c ← hexValue? c
    let d ← hexValue? d
    some (4096 * a + 256 * b + 16 * c + d, rest)
  | _ => none

/-- The character an escape stands for, other than one given by its code. -/
def simpleEscape? : Char → Option Char
  | '"' => some '"'
  | '\\' => some '\\'
  | '/' => some '/'
  | 'b' => some '\x08'
  | 'f' => some '\x0c'
  | 'n' => some '\n'
  | 'r' => some '\r'
  | 't' => some '\t'
  | _ => none

/-- What an escape by code stands for: a character, or half a surrogate pair. A pair takes two escapes. -/
def coded? (cs : List Char) : Option (Option Char × List Char) := do
  let (u, rest) ← codeUnit? cs
  if u < 0xD800 ∨ 0xDFFF < u then some (some (Char.ofNat u), rest)
  else if 0xDC00 ≤ u then some (none, rest)
  else
    match rest with
    | '\\' :: 'u' :: more =>
      match codeUnit? more with
      | some (v, rest') =>
        if 0xDC00 ≤ v ∧ v ≤ 0xDFFF then
          some (some (Char.ofNat (0x10000 + 1024 * (u - 0xD800) + (v - 0xDC00))), rest')
        else some (none, rest)
      | none => some (none, rest)
    | _ => some (none, rest)

/-- The characters up to the closing quote, last first, and whether each was one. -/
def quoted : Nat → List Char → List Char → Bool → Option (List Char × Bool × List Char)
  | 0, _, _, _ => none
  | fuel + 1, cs, acc, whole =>
    match cs with
    | [] => none
    | '"' :: rest => some (acc, whole, rest)
    | '\\' :: 'u' :: rest =>
      match coded? rest with
      | some (some c, rest) => quoted fuel rest (c :: acc) whole
      | some (none, rest) => quoted fuel rest acc false
      | none => none
    | '\\' :: c :: rest =>
      match simpleEscape? c with
      | some c => quoted fuel rest (c :: acc) whole
      | none => none
    | c :: rest => if c.toNat < 32 ∨ c = '\\' then none else quoted fuel rest (c :: acc) whole

/-- A quoted text, after its opening quote. -/
def text? (cs : List Char) : Option (Json × List Char) :=
  (quoted (cs.length + 1) cs [] true).map fun (acc, whole, rest) =>
    (if whole then .text (String.ofList acc.reverse) else .unpaired, rest)

def digitValue (c : Char) : Nat := c.toNat - '0'.toNat

/-- The number that a row of digits writes. -/
def digitsValue (ds : List Char) : Nat := ds.foldl (fun n d => 10 * n + digitValue d) 0

/-- At least one digit. -/
def digits? (cs : List Char) : Option (List Char × List Char) :=
  match cs.takeWhile Char.isDigit with
  | [] => none
  | ds => some (ds, cs.dropWhile Char.isDigit)

/-- Digits without a zero in front of others. -/
def wholePart? (cs : List Char) : Option (List Char × List Char) :=
  match cs with
  | '0' :: rest => if (rest.headD ' ').isDigit then none else some (['0'], rest)
  | _ => digits? cs

def fraction? (cs : List Char) : Option (List Char × List Char) :=
  match cs with
  | '.' :: rest => digits? rest
  | _ => some ([], cs)

/-- The power of ten that an exponent part gives, if there is one. -/
def exponent? (cs : List Char) : Option (Option Int × List Char) :=
  match cs with
  | c :: rest =>
    if c = 'e' ∨ c = 'E' then
      match rest with
      | '+' :: rest => (digits? rest).map fun (ds, rest) => (some (digitsValue ds : Int), rest)
      | '-' :: rest => (digits? rest).map fun (ds, rest) => (some (-(digitsValue ds : Int)), rest)
      | _ => (digits? rest).map fun (ds, rest) => (some (digitsValue ds : Int), rest)
    else some (none, cs)
  | [] => some (none, cs)

/-- The double nearest to `digits * 10 ^ power`. Far beyond the range of doubles the power is not spelled
out: the answer is infinite or zero. -/
def doubleOf (negative : Bool) (digits : List Char) (power : Int) : Binary :=
  let n := digitsValue digits
  let point := (Decimal.width n : Int) + power
  if n = 0 then .finite negative 0 0
  else if 400 < point then .infinite negative
  else if point < -400 then .finite negative 0 0
  else Binary.ofRatio .double negative (n * Nat.pow 10 power.toNat) (Nat.pow 10 (-power).toNat)

/-- A number. One without fraction and exponent is whole, if it fits into 64 bits. -/
def number? (cs : List Char) : Option (JsonNumber × List Char) := do
  let (negative, cs) := match cs with
    | '-' :: rest => (true, rest)
    | _ => (false, cs)
  let (whole, cs) ← wholePart? cs
  let (frac, cs) ← fraction? cs
  let (power, cs) ← exponent? cs
  let n := digitsValue whole
  if frac.isEmpty && power.isNone then
    if negative then
      if 0 < n ∧ n ≤ Nat.pow 2 63 then some (.negative n, cs) else some (.double (doubleOf true whole 0), cs)
    else if n < Nat.pow 2 64 then some (.natural n, cs)
    else some (.double (doubleOf false whole 0), cs)
  else some (.double (doubleOf negative (whole ++ frac) (power.getD 0 - frac.length)), cs)

/-- An object with the fields read. One key that is no string makes the object unpaired. -/
def ofFields (fields : List (Json × Json)) : Json :=
  match fields.mapM fun | (.text k, v) => some (k, v) | _ => none with
  | some fields => .object fields
  | none => .unpaired

mutual

def value : Nat → List Char → Option (Json × List Char)
  | 0, _ => none
  | fuel + 1, cs =>
    match skipBlanks cs with
    | 'n' :: 'u' :: 'l' :: 'l' :: rest => some (.null, rest)
    | 't' :: 'r' :: 'u' :: 'e' :: rest => some (.bool true, rest)
    | 'f' :: 'a' :: 'l' :: 's' :: 'e' :: rest => some (.bool false, rest)
    | '"' :: rest => text? rest
    | '[' :: rest =>
      match skipBlanks rest with
      | ']' :: rest => some (.list [], rest)
      | rest => (items fuel rest).map fun (vs, rest) => (.list vs, rest)
    | '{' :: rest =>
      match skipBlanks rest with
      | '}' :: rest => some (.object [], rest)
      | rest => (fields fuel rest).map fun (fs, rest) => (ofFields fs, rest)
    | rest => (number? rest).map fun (n, rest) => (.number n, rest)

/-- The values of an array, with its closing bracket. -/
def items : Nat → List Char → Option (List Json × List Char)
  | 0, _ => none
  | fuel + 1, cs =>
    match value fuel cs with
    | none => none
    | some (v, rest) =>
      match skipBlanks rest with
      | ',' :: rest => (items fuel rest).map fun (vs, rest) => (v :: vs, rest)
      | ']' :: rest => some ([v], rest)
      | _ => none

/-- The keys and values of an object, with its closing brace. -/
def fields : Nat → List Char → Option (List (Json × Json) × List Char)
  | 0, _ => none
  | fuel + 1, cs =>
    match skipBlanks cs with
    | '"' :: rest =>
      match text? rest with
      | some (k, rest) =>
        match skipBlanks rest with
        | ':' :: rest =>
          match value fuel rest with
          | none => none
          | some (v, rest) =>
            match skipBlanks rest with
            | ',' :: rest => (fields fuel rest).map fun (fs, rest) => ((k, v) :: fs, rest)
            | '}' :: rest => some ([(k, v)], rest)
            | _ => none
        | _ => none
      | none => none
    | _ => none

end

/-- Reads a text that holds one value and nothing else. -/
def parse? (s : String) : Option Json :=
  let cs := s.toList
  match value (2 * cs.length + 1) cs with
  | some (v, rest) => if (skipBlanks rest).isEmpty then some v else none
  | none => none

end PageTest.Json
