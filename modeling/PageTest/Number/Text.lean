import PageTest.Number.Shortest

/-! The text of numbers: where the point goes, when an exponent is written, and what becomes of whole
numbers, for the plain style of messages and the style of JSON. -/

namespace PageTest

/-- The choices that make a decimal a text. -/
structure NumberStyle where
  tie : Tie
  /-- Whether a number whose point stands at this position is written without an exponent. -/
  positional : Int → Bool
  /-- Whether a whole number keeps a point and a zero. -/
  pointed : Bool

namespace NumberStyle

/-- Every digit is written out, and a whole number has no point. -/
def plain : NumberStyle := ⟨.up, fun _ => true, false⟩

/-- Numbers from `10 ^ -5` up to `10 ^ 16` are written out with a point, others with an exponent. -/
def json : NumberStyle := ⟨.toEven, fun point => -5 < point && point ≤ 16, true⟩

end NumberStyle

namespace Decimal

def zeros (n : Nat) : String := String.ofList (List.replicate n '0')

def withPoint (digits : List Char) (point : Int) (pointed : Bool) : String :=
  if point ≤ 0 then "0." ++ zeros (-point).toNat ++ String.ofList digits
  else if point < digits.length then
    String.ofList (digits.take point.toNat) ++ "." ++ String.ofList (digits.drop point.toNat)
  else String.ofList digits ++ zeros (point - digits.length).toNat ++ (if pointed then ".0" else "")

def withExponent (digits : List Char) (point : Int) : String :=
  let mantissa := match digits with
    | [] => ""
    | [d] => String.ofList [d]
    | d :: rest => String.ofList [d] ++ "." ++ String.ofList rest
  let e := point - 1
  mantissa ++ (if e < 0 then "e-" else "e+") ++ toString e.natAbs

def text (style : NumberStyle) (d : Decimal) : String :=
  let digits := Nat.toDigits 10 d.digits
  if d.digits = 0 then (if style.pointed then "0.0" else "0")
  else
    let point := digits.length + d.power
    if style.positional point then withPoint digits point style.pointed else withExponent digits point

end Decimal

namespace Binary

/-- The text of a number of the given format. -/
def text (style : NumberStyle) (f : BinaryFormat) : Binary → String
  | .nan => "NaN"
  | .infinite negative => if negative then "-inf" else "inf"
  | .finite negative m k =>
    (if negative then "-" else "") ++ (shortest f style.tie m k).text style

end Binary

/-- A whole number in decimal. -/
def intText (i : Int) : String := if i < 0 then "-" ++ toString i.natAbs else toString i.natAbs

end PageTest
