/-! Binary floating-point numbers as exact values. Every finite number of the formats used here is a
natural number of units of `2 ^ -1074`, with a sign; so values of different formats are
compared, and decimals and integers rounded to a format, in natural numbers. -/

namespace PageTest

/-- A binary interchange format: how many bits hold the fraction, how many the exponent. -/
structure BinaryFormat where
  fraction : Nat
  exponent : Nat
  deriving DecidableEq, Repr

namespace BinaryFormat

def double : BinaryFormat := ⟨52, 11⟩
def single : BinaryFormat := ⟨23, 8⟩

/-- The power of two, in units of `2 ^ -1074`, of the last bit of the smallest numbers. -/
def leastShift (f : BinaryFormat) : Nat := 1076 - (Nat.pow 2 (f.exponent - 1) + f.fraction)

/-- The power of two, in units of `2 ^ -1074`, of the last bit of the greatest numbers. -/
def greatestShift (f : BinaryFormat) : Nat := f.leastShift + (Nat.pow 2 f.exponent - 3)

end BinaryFormat

/-- A floating-point number. `finite s m k` is `m * 2 ^ k` units of `2 ^ -1074`, negative if `s`. -/
inductive Binary where
  | nan
  | infinite (negative : Bool)
  | finite (negative : Bool) (significand shift : Nat)
  deriving DecidableEq, Repr

namespace Binary

/-- Reads the sign, exponent and fraction fields of a bit pattern. -/
def ofBits (f : BinaryFormat) (bits : Nat) : Binary :=
  let negative := bits / Nat.pow 2 (f.fraction + f.exponent) % 2 == 1
  let exponent := bits / Nat.pow 2 f.fraction % Nat.pow 2 f.exponent
  let fraction := bits % Nat.pow 2 f.fraction
  if exponent = Nat.pow 2 f.exponent - 1 then
    if fraction = 0 then .infinite negative else .nan
  else if exponent = 0 then .finite negative fraction f.leastShift
  else .finite negative (Nat.pow 2 f.fraction + fraction) (f.leastShift + (exponent - 1))

/-- The magnitude of a finite number in units of `2 ^ -1074`. -/
def units (m k : Nat) : Nat := m * Nat.pow 2 k

/-- The same value: one NaN is as good as another, and zeros of different sign differ. -/
def same : Binary → Binary → Bool
  | .nan, .nan => true
  | .infinite s, .infinite t => s == t
  | .finite s m k, .finite t n l => s == t && units m k == units n l
  | _, _ => false

/-- The natural number nearest to `num / den`, a half going to the even one. -/
def roundHalfEven (num den : Nat) : Nat :=
  let q := num / den
  let r := num % den
  if 2 * r < den then q
  else if den < 2 * r then q + 1
  else if q % 2 = 0 then q else q + 1

/-- The number of the format nearest to `num / den` units, a half going to the even significand;
past the greatest number it is infinite. -/
def ofUnits (f : BinaryFormat) (negative : Bool) (num den : Nat) : Binary :=
  let shift := max f.leastShift ((num / den).log2 - f.fraction)
  let m := roundHalfEven num (den * Nat.pow 2 shift)
  let (m, shift) := if m = Nat.pow 2 (f.fraction + 1) then (Nat.pow 2 f.fraction, shift + 1) else (m, shift)
  if f.greatestShift < shift then .infinite negative else .finite negative m shift

/-- The number of the format nearest to `num / den`. -/
def ofRatio (f : BinaryFormat) (negative : Bool) (num den : Nat) : Binary :=
  ofUnits f negative (num * Nat.pow 2 1074) den

def ofNat (f : BinaryFormat) (n : Nat) : Binary := ofRatio f false n 1

def isFinite : Binary → Bool
  | .finite .. => true
  | _ => false

end Binary

end PageTest
