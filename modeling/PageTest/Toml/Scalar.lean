import PageTest.Json.Reader
import PageTest.Time.Calendar

/-! The lexical parts of a configuration file: blanks, comments, keys, texts, numbers, dates and times.
Each reader takes the characters that are left and returns what it read with the rest. -/

namespace PageTest.Toml

def isBlank (c : Char) : Bool := c = ' ' || c = '\t'

/-- A character that may stand in a comment. -/
def isPlain (c : Char) : Bool := c = '\t' || (0x20 ≤ c.toNat && c.toNat != 0x7f)

def skipBlanks (cs : List Char) : List Char := cs.dropWhile isBlank

def newline? : List Char → Option (List Char)
  | '\n' :: rest => some rest
  | '\r' :: '\n' :: rest => some rest
  | _ => none

def skipComment : List Char → List Char
  | '#' :: rest => rest.dropWhile isPlain
  | cs => cs

/-- The end of a line: blanks, a comment, and a line break or the end of the text. -/
def lineEnd? (cs : List Char) : Option (List Char) :=
  match skipComment (skipBlanks cs) with
  | [] => some []
  | rest => newline? rest

/-- Skips blanks and line breaks. -/
def skipEmptyLines : List Char → List Char
  | ' ' :: rest => skipEmptyLines rest
  | '\t' :: rest => skipEmptyLines rest
  | '\n' :: rest => skipEmptyLines rest
  | '\r' :: '\n' :: rest => skipEmptyLines rest
  | cs => cs

/-- Skips blanks, line breaks and comments. -/
def skipLines : Nat → List Char → List Char
  | 0, cs => cs
  | fuel + 1, cs =>
    match cs with
    | ' ' :: rest => skipLines fuel rest
    | '\t' :: rest => skipLines fuel rest
    | '\n' :: rest => skipLines fuel rest
    | '\r' :: '\n' :: rest => skipLines fuel rest
    | '#' :: rest => skipLines fuel (rest.dropWhile isPlain)
    | _ => cs

/-- A character given by a number of hexadecimal digits. -/
def coded? (count : Nat) (cs : List Char) : Option (Char × List Char) := do
  let ds ← (cs.take count).mapM Json.hexValue?
  if ds.length ≠ count then none
  let n := ds.foldl (fun n d => 16 * n + d) 0
  if h : n.isValidChar then some (Char.ofNatAux n h, cs.drop count) else none

def simpleEscape? : Char → Option Char
  | 'b' => some '\x08'
  | 't' => some '\t'
  | 'n' => some '\n'
  | 'f' => some '\x0c'
  | 'r' => some '\r'
  | '"' => some '"'
  | '\\' => some '\\'
  | _ => none

def escape? : List Char → Option (Char × List Char)
  | 'u' :: rest => coded? 4 rest
  | 'U' :: rest => coded? 8 rest
  | c :: rest => (simpleEscape? c).map fun c => (c, rest)
  | [] => none

/-- A text in double quotes, after the first. -/
def basic : Nat → List Char → List Char → Option (List Char × List Char)
  | 0, _, _ => none
  | fuel + 1, acc, cs =>
    match cs with
    | '"' :: rest => some (acc.reverse, rest)
    | '\\' :: rest =>
      match escape? rest with
      | some (c, rest) => basic fuel (c :: acc) rest
      | none => none
    | c :: rest => if isPlain c then basic fuel (c :: acc) rest else none
    | [] => none

/-- A text in single quotes, after the first; nothing is escaped in it. -/
def literal : List Char → List Char → Option (List Char × List Char)
  | acc, '\'' :: rest => some (acc.reverse, rest)
  | acc, c :: rest => if isPlain c then literal (c :: acc) rest else none
  | _, [] => none

/-- Up to two quotes may stand in front of the three that close a text of several lines. -/
def close (q : Char) (acc rest : List Char) : List Char × List Char :=
  match rest with
  | a :: b :: more =>
    if a = q then
      if b = q then ((q :: q :: acc).reverse, more) else ((q :: acc).reverse, b :: more)
    else (acc.reverse, rest)
  | [a] => if a = q then ((q :: acc).reverse, []) else (acc.reverse, rest)
  | [] => (acc.reverse, [])

/-- A text of several lines in double quotes. A backslash at the end of a line joins it to the next
text. -/
def basicLines : Nat → List Char → List Char → Option (List Char × List Char)
  | 0, _, _ => none
  | fuel + 1, acc, cs =>
    match cs with
    | '"' :: '"' :: '"' :: rest => some (close '"' acc rest)
    | '\n' :: rest => basicLines fuel ('\n' :: acc) rest
    | '\r' :: '\n' :: rest => basicLines fuel ('\n' :: acc) rest
    | '\\' :: rest =>
      match newline? (skipBlanks rest) with
      | some rest => basicLines fuel acc (skipEmptyLines rest)
      | none =>
        match escape? rest with
        | some (c, rest) => basicLines fuel (c :: acc) rest
        | none => none
    | c :: rest => if isPlain c then basicLines fuel (c :: acc) rest else none
    | [] => none

def literalLines : Nat → List Char → List Char → Option (List Char × List Char)
  | 0, _, _ => none
  | fuel + 1, acc, cs =>
    match cs with
    | '\'' :: '\'' :: '\'' :: rest => some (close '\'' acc rest)
    | '\n' :: rest => literalLines fuel ('\n' :: acc) rest
    | '\r' :: '\n' :: rest => literalLines fuel ('\n' :: acc) rest
    | c :: rest => if isPlain c then literalLines fuel (c :: acc) rest else none
    | [] => none

/-- The line break right after the opening quotes does not count. -/
def skipNewline (cs : List Char) : List Char := (newline? cs).getD cs

/-- A text in one of the four kinds of quotes. -/
def text? (cs : List Char) : Option (List Char × List Char) :=
  match cs with
  | '"' :: '"' :: '"' :: rest => basicLines (rest.length + 1) [] (skipNewline rest)
  | '"' :: rest => basic (rest.length + 1) [] rest
  | '\'' :: '\'' :: '\'' :: rest => literalLines (rest.length + 1) [] (skipNewline rest)
  | '\'' :: rest => literal [] rest
  | _ => none

def isBareKey (c : Char) : Bool := c.isAlphanum || c = '-' || c = '_'

/-- A key without dots: bare, or a text in quotes on one line. -/
def simpleKey? (cs : List Char) : Option (String × List Char) :=
  match cs with
  | '"' :: rest => (basic (rest.length + 1) [] rest).map fun (k, rest) => (String.ofList k, rest)
  | '\'' :: rest => (literal [] rest).map fun (k, rest) => (String.ofList k, rest)
  | _ =>
    match cs.takeWhile isBareKey with
    | [] => none
    | k => some (String.ofList k, cs.dropWhile isBareKey)

/-- How deep values and keys may be nested. -/
def depthLimit : Nat := 80

def keyParts : Nat → List Char → Option (List String × List Char)
  | 0, _ => none
  | fuel + 1, cs => do
    let (k, rest) ← simpleKey? (skipBlanks cs)
    match skipBlanks rest with
    | '.' :: rest =>
      let (ks, rest) ← keyParts fuel rest
      some (k :: ks, rest)
    | rest => some ([k], rest)

/-- A dotted key: the tables it leads through, and its last part. -/
def key? (cs : List Char) : Option (List String × String × List Char) := do
  let (ks, rest) ← keyParts (depthLimit - 1) cs
  match ks.reverse with
  | [] => none
  | k :: path => some (path.reverse, k, rest)

/-- Digits of some kind, with single underscores between them. -/
def digitRun (isDigit : Char → Bool) : List Char → List Char × List Char
  | '_' :: c :: rest =>
    if isDigit c then
      let (ds, rest) := digitRun isDigit rest
      (c :: ds, rest)
    else ([], '_' :: c :: rest)
  | c :: rest =>
    if isDigit c then
      let (ds, rest) := digitRun isDigit rest
      (c :: ds, rest)
    else ([], c :: rest)
  | [] => ([], [])

/-- At least one digit, none of them behind an underscore at the start. -/
def digits? (isDigit : Char → Bool) (cs : List Char) : Option (List Char × List Char) :=
  match cs with
  | c :: _ => if isDigit c then some (digitRun isDigit cs) else none
  | [] => none

def sign (cs : List Char) : Bool × List Char :=
  match cs with
  | '+' :: rest => (false, rest)
  | '-' :: rest => (true, rest)
  | _ => (false, cs)

/-- Decimal digits without a zero in front of others, after a sign. -/
def decimal? (cs : List Char) : Option (Bool × List Char × List Char) :=
  let (negative, cs) := sign cs
  match cs with
  | '0' :: rest => some (negative, ['0'], rest)
  | _ => (digits? Char.isDigit cs).map fun (ds, rest) => (negative, ds, rest)

def radixValue (radix : Nat) (ds : List Char) : Nat :=
  ds.foldl (fun n d => radix * n + (Json.hexValue? d).getD 0) 0

def inRadix? (radix : Nat) (cs : List Char) : Option (Int × List Char) := do
  let (ds, rest) ← digits? (fun c => match Json.hexValue? c with
    | some d => d < radix
    | none => false) cs
  let n := radixValue radix ds
  if n < Nat.pow 2 63 then some ((n : Int), rest) else none

/-- A whole number that fits into 64 bits with a sign. -/
def integer? (cs : List Char) : Option (Int × List Char) :=
  match cs with
  | '0' :: 'x' :: rest => inRadix? 16 rest
  | '0' :: 'o' :: rest => inRadix? 8 rest
  | '0' :: 'b' :: rest => inRadix? 2 rest
  | _ => do
    let (negative, ds, rest) ← decimal? cs
    let n : Int := Json.digitsValue ds
    let n := if negative then -n else n
    if -(Nat.pow 2 63 : Int) ≤ n ∧ n < Nat.pow 2 63 then some (n, rest) else none

def exponent? (cs : List Char) : Option (Int × List Char) :=
  match cs with
  | c :: rest =>
    if c = 'e' ∨ c = 'E' then
      let (negative, rest) := sign rest
      (digits? Char.isDigit rest).map fun (ds, rest) =>
        (if negative then -(Json.digitsValue ds : Int) else Json.digitsValue ds, rest)
    else none
  | [] => none

/-- A number with a fraction or an exponent, or one of the special values. A positive number too great
for a double is refused. -/
def float? (cs : List Char) : Option (List Char) :=
  match (sign cs).2 with
  | 'i' :: 'n' :: 'f' :: rest => some rest
  | 'n' :: 'a' :: 'n' :: rest => some rest
  | _ => do
    let (negative, whole, rest) ← decimal? cs
    let (frac, power, rest) ← match rest with
      | '.' :: rest => do
        let (ds, rest) ← digits? Char.isDigit rest
        match exponent? rest with
        | some (e, rest) => some (ds, e, rest)
        | none => some (ds, 0, rest)
      | _ => (exponent? rest).map fun (e, rest) => ([], e, rest)
    if Json.doubleOf negative (whole ++ frac) (power - frac.length) = .infinite false then none
    else some rest

/-- A row of exactly `count` digits whose value lies between two bounds. -/
def field? (count least most : Nat) (cs : List Char) : Option (Nat × List Char) :=
  let ds := cs.take count
  let n := Json.digitsValue ds
  if ds.length = count ∧ ds.all Char.isDigit ∧ least ≤ n ∧ n ≤ most then some (n, cs.drop count)
  else none

def mark? (c : Char) (cs : List Char) : Option (List Char) :=
  match cs with
  | c' :: rest => if c' = c then some rest else none
  | [] => none

def date? (cs : List Char) : Option (List Char) := do
  let (year, cs) ← field? 4 0 9999 cs
  let (month, cs) ← field? 2 1 12 (← mark? '-' cs)
  let (day, cs) ← field? 2 1 31 (← mark? '-' cs)
  if (Date.mk year month day).valid then some cs else none

def time? (cs : List Char) : Option (List Char) := do
  let (_, cs) ← field? 2 0 23 cs
  let (_, cs) ← field? 2 0 59 (← mark? ':' cs)
  let (_, cs) ← field? 2 0 60 (← mark? ':' cs)
  match cs with
  | '.' :: rest =>
    match rest.takeWhile Char.isDigit with
    | [] => some cs
    | _ => some (rest.dropWhile Char.isDigit)
  | _ => some cs

def offset? (cs : List Char) : Option (List Char) :=
  match cs with
  | c :: rest =>
    if c = 'Z' ∨ c = 'z' then some rest
    else if c = '+' ∨ c = '-' then do
      let (_, rest) ← field? 2 0 23 rest
      let (_, rest) ← field? 2 0 59 (← mark? ':' rest)
      some rest
    else some cs
  | [] => some []

/-- A date, a time of day, or both with or without an offset. -/
def dateTime? (cs : List Char) : Option (List Char) :=
  match date? cs with
  | some rest =>
    match rest with
    | c :: more =>
      if c = 'T' ∨ c = 't' ∨ c = ' ' then
        match time? more with
        | some more => offset? more
        | none => some rest
      else some rest
    | [] => some []
  | none => time? cs

end PageTest.Toml
