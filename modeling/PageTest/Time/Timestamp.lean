import PageTest.Time.Calendar
import PageTest.Text.Blank

/-! Instants in universal time, with the texts in which reports keep them. Writing gives as many decimals
of the second as are needed, in threes; reading is more generous: it takes any offset, blanks
between the parts and short numbers. -/

namespace PageTest

/-- Seconds from the start of 1970, and nanoseconds. During a leap second the seconds stand still and
the nanoseconds run on past a thousand million; nothing keeps them from doing so in any other second. -/
structure Timestamp where
  seconds : Int
  nanos : Nat
  deriving DecidableEq, Repr

namespace Timestamp

def date (t : Timestamp) : Date := Date.ofDays (t.seconds / 86400)

def secondOfDay (t : Timestamp) : Nat := (t.seconds % 86400).toNat

/-- Whether the instant can be kept: its year is in range, and its second lasts less than two. -/
def valid (t : Timestamp) : Bool :=
  Date.yearInRange t.date.year && t.nanos < 2000000000

/-- Whether the nanoseconds run past a thousand million in the last second of a minute at most. -/
def regular (t : Timestamp) : Bool :=
  t.nanos < 1000000000 || t.secondOfDay % 60 == 59

/-- The instant that the text of `t` names. A text can show a second that runs on only as the next one, or
as the sixty-first of its minute. -/
def settled (t : Timestamp) : Timestamp :=
  if t.regular then t else ⟨t.seconds + 1, t.nanos - 1000000000⟩

def padded (width n : Nat) : String :=
  let s := toString n
  String.ofList (List.replicate (width - s.length) '0') ++ s

def yearText (year : Int) : String :=
  if 0 ≤ year ∧ year ≤ 9999 then padded 4 year.natAbs
  else (if year < 0 then "-" else "+") ++ padded 4 year.natAbs

def fractionText (nanos : Nat) : String :=
  if nanos = 0 then ""
  else if nanos % 1000000 = 0 then "." ++ padded 3 (nanos / 1000000)
  else if nanos % 1000 = 0 then "." ++ padded 6 (nanos / 1000)
  else "." ++ padded 9 nanos

def text (t : Timestamp) : String :=
  let d := t.date
  let s := t.secondOfDay
  let leaps := 1000000000 ≤ t.nanos
  yearText d.year ++ "-" ++ padded 2 d.month ++ "-" ++ padded 2 d.day ++ "T" ++
    padded 2 (s / 3600) ++ ":" ++ padded 2 (s / 60 % 60) ++ ":" ++
    padded 2 (if leaps then s % 60 + 1 else s % 60) ++
    fractionText (if leaps then t.nanos - 1000000000 else t.nanos) ++ "Z"

section Reading

def numberOf (ds : List Char) : Nat := ds.foldl (fun n d => 10 * n + (d.toNat - '0'.toNat)) 0

/-- From one digit up to `most`. -/
def upTo (most : Nat) (cs : List Char) : Option (Nat × List Char) :=
  match (cs.take most).takeWhile Char.isDigit with
  | [] => none
  | ds => some (numberOf ds, cs.drop ds.length)

/-- A year: up to four digits, or any number of them after a sign. -/
def year? (cs : List Char) : Option (Int × List Char) :=
  match Text.trimStart cs with
  | '-' :: rest => (upTo rest.length rest).map fun (n, rest) => (-(n : Int), rest)
  | '+' :: rest => (upTo rest.length rest).map fun (n, rest) => ((n : Int), rest)
  | rest => (upTo 4 rest).map fun (n, rest) => ((n : Int), rest)

/-- One or two digits, after blanks. -/
def two? (cs : List Char) : Option (Nat × List Char) := upTo 2 (Text.trimStart cs)

def sign? (c : Char) (cs : List Char) : Option (List Char) :=
  match Text.trimStart cs with
  | [] => none
  | c' :: rest => if c' = c then some rest else none

/-- Decimals of a second, as nanoseconds; those after the ninth are passed over. -/
def decimals? (cs : List Char) : Option (Nat × List Char) :=
  match cs with
  | '.' :: rest =>
    match rest.takeWhile Char.isDigit with
    | [] => none
    | ds =>
      let kept := ds.take 9
      some (numberOf kept * Nat.pow 10 (9 - kept.length), rest.drop ds.length)
  | _ => some (0, cs)

def separator? : List Char → Option (List Char)
  | 'T' :: rest => some rest
  | 't' :: rest => some rest
  | ' ' :: rest => some rest
  | _ => none

/-- Two digits each for hours and minutes, with colons or blanks between them. -/
def hoursMinutes? : List Char → Option (Int × List Char)
  | a :: b :: rest =>
    if a.isDigit && b.isDigit then
      match rest.dropWhile (fun c => c == ':' || Text.isBlank c) with
      | c :: d :: rest =>
        if '0' ≤ c && c ≤ '5' && d.isDigit then
          some ((numberOf [a, b] : Int) * 3600 + (numberOf [c, d] : Int) * 60, rest)
        else none
      | _ => none
    else none
  | _ => none

/-- How far local time is ahead, in seconds. -/
def offset? (cs : List Char) : Option (Int × List Char) :=
  match Text.trimStart cs with
  | 'Z' :: rest => some (0, rest)
  | 'z' :: rest => some (0, rest)
  | '+' :: rest => hoursMinutes? rest
  | '-' :: rest => (hoursMinutes? rest).map fun (n, rest) => (-n, rest)
  | '\u2212' :: rest => (hoursMinutes? rest).map fun (n, rest) => (-n, rest)
  | a :: b :: c :: rest =>
    if a.toUpper = 'U' ∧ b.toUpper = 'T' ∧ c.toUpper = 'C' then some (0, rest) else none
  | _ => none

/-- The instant at which clocks `offset` seconds ahead show the given date and time. -/
def ofLocal? (d : Date) (hour minute second nanos : Nat) (offset : Int) : Option Timestamp :=
  if d.valid && Date.yearInRange d.year && hour < 24 && minute < 60 && second ≤ 60 &&
      -86400 < offset && offset < 86400 then
    let leaps := second = 60
    let shown := d.toDays * 86400 + hour * 3600 + minute * 60 + (if leaps then 59 else second : Nat)
    let t : Timestamp := ⟨shown - offset, if leaps then nanos + 1000000000 else nanos⟩
    if Date.yearInRange t.date.year then some t else none
  else none

def parse? (s : String) : Option Timestamp := do
  let (year, cs) ← year? s.toList
  let cs ← sign? '-' cs
  let (month, cs) ← two? cs
  let cs ← sign? '-' cs
  let (day, cs) ← two? cs
  let cs ← separator? cs
  let (hour, cs) ← two? cs
  let cs ← sign? ':' cs
  let (minute, cs) ← two? cs
  let cs ← sign? ':' cs
  let (second, cs) ← two? cs
  let (nanos, cs) ← decimals? cs
  let (offset, cs) ← offset? cs
  if (Text.trimStart cs).isEmpty then ofLocal? ⟨year, month, day⟩ hour minute second nanos offset
  else none

end Reading

end Timestamp

end PageTest
