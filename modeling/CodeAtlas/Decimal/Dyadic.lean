/-
  File:      CodeAtlas/Decimal/Dyadic.lean
  Subject:   Floating point numbers as exact multiples of powers of two.

  * `Dyadic.ofFloat?`: a finite number as n · 2^e.
  * `orderWith`: how an integer compares with a floating point number. Neither is
    rounded; what is not a number compares with nothing.
  * `quotient?`: the floating point number nearest to the quotient of integers.
  * `floorRemainder`, `floorQuotient`: division with the remainder on the side of
    the divisor. The remainder is exact before it changes its side.
-/
import CodeAtlas.Decimal.Reading
import CodeAtlas.Decimal.Shortest

namespace CodeAtlas.Decimal

/-- The number numerator · 2^exponent. -/
structure Dyadic where
  numerator : Int
  exponent : Int
  deriving DecidableEq, Repr

/-- Whether a floating point number has a minus sign; zero may have one. -/
def isSigned (x : Float) : Bool := x.toBits.toNat / Nat.pow 2 63 == 1

/-- A finite number; none for infinity and what is not a number. -/
def Dyadic.ofFloat? (x : Float) : Option Dyadic :=
  if x.isFinite then
    match Binary.ofBits? x.toBits with
    | some b => some ⟨if isSigned x then -(b.mantissa : Int) else b.mantissa, b.exponent⟩
    | none => some ⟨0, 0⟩
  else none

/-- The numerator on a finer grid, 2^exponent. -/
def Dyadic.on (d : Dyadic) (exponent : Int) : Int :=
  d.numerator * Nat.pow 2 (d.exponent - exponent).toNat

/-! ## 1. Order -/

/-- How two floating point numbers compare. -/
def order (x y : Float) : Option Ordering :=
  if x < y then some .lt else if x == y then some .eq else if y < x then some .gt else none

/-- How an integer compares with a floating point number. -/
def orderWith (n : Int) (x : Float) : Option Ordering :=
  match Dyadic.ofFloat? x with
  | some d =>
    let grid := min 0 d.exponent
    some (compare ((⟨n, 0⟩ : Dyadic).on grid) (d.on grid))
  | none => order 0.0 x

/-! ## 2. Quotients of integers -/

/-- The natural number nearest to a quotient; half way between two it is the even one. -/
def roundedQuotient (num den : Nat) : Nat :=
  let floor := num / den
  let twice := 2 * (num % den)
  if den < twice || (twice == den && floor % 2 == 1) then floor + 1 else floor

/-- The floating point number nearest to num / den, both positive; infinite if it is too large.
The last of its 53 digits stands for 2^exponent, unless that is below the smallest number. -/
def nearestQuotient (num den : Nat) : Float :=
  let size : Int := (num.log2 : Int) - den.log2
  let scaled (exponent : Int) : Nat × Nat :=
    (num * Nat.pow 2 (-exponent).toNat, den * Nat.pow 2 exponent.toNat)
  let full (exponent : Int) : Bool :=
    let (n, d) := scaled exponent
    Nat.pow 2 52 * d ≤ n
  let exponent := max (-1074) (if full (size - 52) then size - 52 else size - 53)
  let (n, d) := scaled exponent
  if 1100 < size then 1.0 / 0.0
  else Float.scaleB (Float.ofNat (roundedQuotient n d)) exponent

/-- The floating point number nearest to the quotient of integers, unless it is too large. The
divisor is not zero. -/
def quotient? (a b : Int) : Option Float :=
  if a == 0 then some (if b < 0 then -0.0 else 0.0)
  else
    let x := nearestQuotient a.natAbs b.natAbs
    if x.isInf then none else some (if (a < 0) == (b < 0) then x else -x)

/-- The floating point number nearest to an integer, unless it is too large. -/
def ofInt? (n : Int) : Option Float := quotient? n 1

/-! ## 3. Division of floating point numbers -/

/-- A zero with the sign of a number. -/
def zeroLike (x : Float) : Float := if isSigned x then -0.0 else 0.0

/-- The exact remainder on the side of the dividend. The divisor is not zero. -/
def remainder (x y : Float) : Float :=
  match Dyadic.ofFloat? x, Dyadic.ofFloat? y with
  | some a, some b =>
    let grid := min a.exponent b.exponent
    let rest := (a.on grid).natAbs % (b.on grid).natAbs
    let size := Float.scaleB (Float.ofNat rest) grid
    if isSigned x then -size else size
  | some _, none => if y.isNaN then y else x
  | none, _ => 0.0 / 0.0

/-- The remainder on the side of the divisor, which is not zero. -/
def floorRemainder (x y : Float) : Float :=
  let rest := remainder x y
  if rest == 0.0 then zeroLike y
  else if (y < 0.0) == (rest < 0.0) then rest
  else rest + y

/-- The quotient that goes with that remainder. -/
def floorQuotient (x y : Float) : Float :=
  let rest := remainder x y
  let even := (x - rest) / y
  let whole := if rest == 0.0 || (y < 0.0) == (rest < 0.0) then even else even - 1.0
  if whole == 0.0 then zeroLike (x / y)
  else
    let floor := whole.floor
    if 0.5 < whole - floor then floor + 1.0 else floor

end CodeAtlas.Decimal
