import PageTest.Number.Binary

/-! The shortest decimal that reads back as a given binary number: the fewest digits such that some
decimal with that many lies in the interval of reals that round to the number, and of the decimals with
that many digits the one nearest to the number. -/

namespace PageTest

/-- `digits * 10 ^ power`. -/
structure Decimal where
  digits : Nat
  power : Int
  deriving DecidableEq, Repr

/-- Which of two decimals equally near to the number is taken. -/
inductive Tie where
  | up | toEven
  deriving DecidableEq, Repr

namespace Decimal

/-- The number of decimal digits of `n`, at least one. -/
def width (n : Nat) : Nat := (Nat.toDigits 10 n).length

def stripZeros (digits : Nat) (power : Int) : Nat → Decimal
  | 0 => ⟨digits, power⟩
  | fuel + 1 =>
    if digits ≠ 0 ∧ digits % 10 = 0 then stripZeros (digits / 10) (power + 1) fuel else ⟨digits, power⟩

/-- Without zeros at its end. -/
def trim (d : Decimal) : Decimal := stripZeros d.digits d.power (width d.digits)

end Decimal

namespace Binary

/-- How many zeros stand between the point and the first digit of `num / den`, when that is below one;
it is at most `fuel`. -/
def leadingZeros (num den : Nat) : Nat → Nat
  | 0 => 0
  | fuel + 1 => if den ≤ num * 10 then 0 else leadingZeros (num * 10) den fuel + 1

/-- The position of the decimal point of `num / den`: the number lies in `[10 ^ (k - 1), 10 ^ k)`. -/
def pointOf (num den : Nat) : Int :=
  if den ≤ num then (Decimal.width (num / den) : Int) else -(leadingZeros num den 400 : Int)

/-- A number with the ends of the interval that rounds to it, all in units of `2 ^ -1076`. -/
structure Interval where
  low : Nat
  value : Nat
  high : Nat
  closed : Bool
  deriving DecidableEq, Repr

/-- Half a gap to each side; the gap below a power of two is half as wide as the one above it. -/
def interval (f : BinaryFormat) (m k : Nat) : Interval :=
  let below := if m = Nat.pow 2 f.fraction ∧ f.leastShift < k then 1 else 2
  ⟨(4 * m - below) * Nat.pow 2 k, 4 * m * Nat.pow 2 k, (4 * m + 2) * Nat.pow 2 k, m % 2 == 0⟩

/-- The decimal nearest to the number among those with `count` digits that lie in the interval. -/
def nearestWith? (i : Interval) (tie : Tie) (point : Int) (count : Nat) : Option Decimal :=
  let power := point - count
  let up := Nat.pow 10 (-power).toNat
  let den := Nat.pow 2 1076 * Nat.pow 10 power.toNat
  let a := i.value * up / den
  let lowIn := if i.closed then i.low * up ≤ a * den else i.low * up < a * den
  let highIn := if i.closed then (a + 1) * den ≤ i.high * up else (a + 1) * den < i.high * up
  let fromLow := i.value * up - a * den
  let fromHigh := (a + 1) * den - i.value * up
  let takeLow :=
    if fromLow < fromHigh then true
    else if fromHigh < fromLow then false
    else match tie with
      | .up => false
      | .toEven => a % 2 == 0
  if lowIn then
    if highIn then some ⟨if takeLow then a else a + 1, power⟩ else some ⟨a, power⟩
  else if highIn then some ⟨a + 1, power⟩
  else none

/-- Tries one digit, two digits and so on. -/
def shortestFrom (i : Interval) (tie : Tie) (point : Int) : Nat → Nat → Decimal
  | 0, count => ⟨i.value / Nat.pow 2 1076, point - count⟩
  | fuel + 1, count =>
    match nearestWith? i tie point count with
    | some d => d.trim
    | none => shortestFrom i tie point fuel (count + 1)

/-- The shortest decimal that reads back as `m * 2 ^ k` units; seventeen digits always suffice. -/
def shortest (f : BinaryFormat) (tie : Tie) (m k : Nat) : Decimal :=
  if m = 0 then ⟨0, 0⟩
  else
    let i := interval f m k
    shortestFrom i tie (pointOf i.value (Nat.pow 2 1076)) 17 1

end Binary

end PageTest
