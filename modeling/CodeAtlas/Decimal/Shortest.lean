/-
  File:      CodeAtlas/Decimal/Shortest.lean
  Subject:   The shortest decimal of a floating point number.

  A finite number is m · 2^q. A decimal reads back as the number if it lies in the
  interval that ends half way to the two neighbours, and at an end of it only if
  m is even. Of the decimals with the fewest digits in the interval the nearest is
  taken, and of two that are equally near the one whose last digit is even. All of
  this is exact arithmetic in natural numbers.

  * `Binary.ofFloat?`: sign, m and q of a finite number.
  * `Binary.shortest`: the digits and the position of the point.
  * `floatText`: the decimal as it is written: positional from 10^-4 up to 10^16,
    with an exponent of at least two digits beyond.
-/
import CodeAtlas.Text.Basic

namespace CodeAtlas.Decimal

/-- A positive number m · 2^q; `boundary` tells that its lower neighbour is only half as far as
the upper one. -/
structure Binary where
  mantissa : Nat
  exponent : Int
  boundary : Bool
  deriving DecidableEq, Repr

/-- Magnitude of a finite number that is not zero. -/
def Binary.ofBits? (bits : UInt64) : Option Binary :=
  let fraction := bits.toNat % Nat.pow 2 52
  let biased : Nat := bits.toNat / Nat.pow 2 52 % Nat.pow 2 11
  if biased == 2047 then none
  else if biased == 0 then
    if fraction == 0 then none else some ⟨fraction, -1074, false⟩
  else some ⟨Nat.pow 2 52 + fraction, (biased : Int) - 1075, fraction == 0 && biased != 1⟩

/-- A fraction with a positive denominator. -/
structure Ratio where
  num : Nat
  den : Nat

/-- `scaled n e` is n · 2^e. -/
def Ratio.scaled (n : Nat) (e : Int) : Ratio :=
  match e with
  | .ofNat e => ⟨n * Nat.pow 2 e, 1⟩
  | .negSucc e => ⟨n, Nat.pow 2 (e + 1)⟩

/-- `r.overPower e` is r / 10^e. -/
def Ratio.overPower (r : Ratio) (e : Int) : Ratio :=
  match e with
  | .ofNat e => ⟨r.num, r.den * Nat.pow 10 e⟩
  | .negSucc e => ⟨r.num * Nat.pow 10 (e + 1), r.den⟩

namespace Binary

/-- The number itself. -/
def value (b : Binary) : Ratio := .scaled b.mantissa b.exponent

/-- The lower end of the interval of reals that round to the number. -/
def low (b : Binary) : Ratio :=
  .scaled (4 * b.mantissa - if b.boundary then 1 else 2) (b.exponent - 2)

/-- The upper end of that interval. -/
def high (b : Binary) : Ratio := .scaled (4 * b.mantissa + 2) (b.exponent - 2)

/-- Whether the integer n, on the grid 10^e, reads back as the number. -/
def readsBack (b : Binary) (n : Nat) (e : Int) : Bool :=
  let low := b.low.overPower e
  let high := b.high.overPower e
  if b.mantissa % 2 == 0 then low.num ≤ n * low.den && n * high.den ≤ high.num
  else low.num < n * low.den && n * high.den < high.num

/-- The point of the grid 10^e that reads back as the number, the nearer of its two neighbours
first; half way between them, the even one. -/
def onGrid? (b : Binary) (e : Int) : Option Nat :=
  let v := b.value.overPower e
  let floor := v.num / v.den
  let twice := 2 * (v.num % v.den)
  let nearFirst :=
    if twice < v.den || (twice == v.den && floor % 2 == 0) then [floor, floor + 1]
    else [floor + 1, floor]
  nearFirst.find? fun n => 0 < n && b.readsBack n e

/-- The position of the decimal point: the least p with the number below 10^p, found by counting
up from `start`. -/
def pointFrom (b : Binary) : (fuel : Nat) → Int → Int
  | 0, p => p
  | fuel + 1, p =>
    let v := b.value.overPower p
    if v.num < v.den then p else pointFrom b fuel (p + 1)

/-- The digits of the shortest decimal, and the exponent of their last digit. -/
def shortestFrom (b : Binary) (point : Int) : (fuel : Nat) → (digits : Nat) → Nat × Int
  | 0, digits => (b.value.num, point - digits)
  | fuel + 1, digits =>
    match b.onGrid? (point - digits) with
    | some n => (n, point - digits)
    | none => shortestFrom b point fuel (digits + 1)

/-- The shortest decimal as n · 10^e. Seventeen digits always suffice. -/
def shortest (b : Binary) : Nat × Int :=
  b.shortestFrom (b.pointFrom 640 (-324)) 17 1

end Binary

/-! ## Writing -/

/-- Digits with a decimal point after `point` of them, and at least one digit on both sides. -/
def positional (digits : Text) (point : Int) : Text :=
  match point with
  | .ofNat p =>
    let padded := digits ++ List.replicate (p - digits.length) '0'
    (if p == 0 then ['0'] else padded.take p) ++ ['.'] ++
      (if padded.length ≤ p then ['0'] else padded.drop p)
  | .negSucc p => "0." ++ List.replicate (p + 1) '0' ++ digits

/-- Digits with an exponent: one digit before the point, and no point without more digits. -/
def exponential (digits : Text) (point : Int) : Text :=
  let exponent := point - 1
  let size := Text.ofNat exponent.natAbs
  digits.take 1 ++ (if digits.length ≤ 1 then [] else '.' :: digits.drop 1) ++ ['e'] ++
    (if exponent < 0 then ['-'] else ['+']) ++ (if size.length < 2 then '0' :: size else size)

/-- A magnitude as it is written. -/
def magnitudeText (b : Binary) : Text :=
  let (n, e) := b.shortest
  let digits := Text.dropWhileRight (· == '0') (Text.ofNat n)
  let point := e + (Text.ofNat n).length
  if -4 < point && point ≤ 16 then positional digits point else exponential digits point

/-- A floating point number as it is written. -/
def floatText (x : Float) : Text :=
  let sign : Text := if x.toBits.toNat / Nat.pow 2 63 == 1 then ['-'] else []
  if x.isNaN then "nan"
  else if x.isInf then sign ++ "inf"
  else
    match Binary.ofBits? x.toBits with
    | some b => sign ++ magnitudeText b
    | none => sign ++ "0.0"

end CodeAtlas.Decimal
