/-
  File:      CodeAtlas/Decimal/Places.lean
  Subject:   Floating point numbers with a given number of digits.

  The value is exact before it is rounded once, half way to the even digit.

  * `fixed`: a number of places after the point.
  * `scientific`: one digit before the point, a number of places after it, and an
    exponent of at least two digits.
  * `general`: a number of digits in all; an exponent only where they would not
    reach the point, or the point is far before them.

  All of them write the magnitude; the sign is not theirs.
-/
import CodeAtlas.Decimal.Dyadic

namespace CodeAtlas.Decimal

/-- The magnitude of a finite number as a fraction. -/
def magnitude (x : Float) : Ratio :=
  match Binary.ofBits? x.toBits with
  | some b => b.value
  | none => ⟨0, 1⟩

/-- The magnitude in units of 10^exponent, rounded. -/
def unitsOf (x : Float) (exponent : Int) : Nat :=
  let r := (magnitude x).overPower exponent
  roundedQuotient r.num r.den

/-- A point before the last `places` digits; `kept` tells that it stays without places. -/
def pointed (kept : Bool) (places units : Nat) : Text :=
  let digits := Text.ofNat units
  let padded := List.replicate (places + 1 - digits.length) '0' ++ digits
  let whole := padded.length - places
  padded.take whole ++ (if places == 0 && !kept then [] else ['.']) ++ padded.drop whole

/-- A number of places after the point. -/
def fixed (kept : Bool) (places : Nat) (x : Float) : Text :=
  pointed kept places (unitsOf x (-(places : Int)))

/-- The exponent of the first digit once the number is rounded to `places` digits after it, and
all the digits. -/
def leading (places : Nat) (x : Float) : Int × Nat :=
  match Binary.ofBits? x.toBits with
  | none => (0, 0)
  | some b =>
    let exponent := b.pointFrom 640 (-324) - 1
    let units := unitsOf x (exponent - places)
    if units == Nat.pow 10 (places + 1) then (exponent + 1, units / 10) else (exponent, units)

/-- An exponent with its sign and at least two digits. -/
def exponentText (exponent : Int) : Text :=
  let size := Text.ofNat exponent.natAbs
  ['e', if exponent < 0 then '-' else '+'] ++ List.replicate (2 - size.length) '0' ++ size

/-- One digit before the point, and an exponent. -/
def scientific (kept : Bool) (places : Nat) (x : Float) : Text :=
  let (exponent, units) := leading places x
  pointed kept places units ++ exponentText exponent

/-- Drops the zeros after the point, and a point without digits after it. -/
def dropZeros (text : Text) : Text :=
  if text.contains '.' then
    Text.dropWhileRight (· == '.') (Text.dropWhileRight (· == '0') text)
  else text

/-- A number of digits in all; `kept` tells that zeros at the end stay. -/
def general (kept : Bool) (digits : Nat) (x : Float) : Text :=
  let digits := max 1 digits
  let (exponent, units) := leading (digits - 1) x
  let trim (text : Text) : Text := if kept then text else dropZeros text
  if -4 ≤ exponent && exponent < digits then
    trim (fixed kept (digits - 1 - exponent).toNat x)
  else trim (pointed kept (digits - 1) units) ++ exponentText exponent

end CodeAtlas.Decimal
