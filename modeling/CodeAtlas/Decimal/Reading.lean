/-
  File:      CodeAtlas/Decimal/Reading.lean
  Subject:   Reading floating point numbers.

  * `nearest`: the floating point number nearest to a decimal.
  * `ofNat?`: the one nearest to a natural number, if there is a finite one.
  * `float?`: reads a number with a point or an exponent, infinity, or not a
    number. Its digits may be those of any script.
-/
import CodeAtlas.Decimal.Integer

namespace CodeAtlas.Decimal

/-- The floating point number nearest to digits · 10^exponent. Beyond the range of exponents
the digits do not matter. -/
def nearest (digits : Nat) (exponent : Int) : Float :=
  let size := (Text.ofNat digits).length + exponent
  if digits == 0 || size < -400 then 0.0
  else if 400 < size then 1.0 / 0.0
  else Float.ofScientific digits (exponent < 0) exponent.natAbs

/-- The floating point number nearest to a natural number, unless it is too large for one. -/
def ofNat? (n : Nat) : Option Float :=
  let x := nearest n 0
  if x.isInf then none else some x

/-- The digits at the start of a text, of any script. -/
def leadingDigits (text : Text) : Text := text.takeWhile Text.isDecimal

/-- The exponent at the end of a number; none is zero. -/
def exponent? : Text → Option Int
  | [] => some 0
  | mark :: rest =>
    if mark == 'e' || mark == 'E' then
      let (negative, body) := signed rest
      (natural? 10 body).map fun n => if negative then -n else n
    else none

/-- Reads a number without its sign. -/
def magnitude? (text : Text) : Option Float :=
  if text == "inf".toList || text == "infinity".toList then some (1.0 / 0.0)
  else if text == "nan".toList then some (0.0 / 0.0)
  else
    let whole := leadingDigits text
    let rest := text.drop whole.length
    let (fraction, rest) :=
      match rest with
      | '.' :: rest =>
        let fraction := leadingDigits rest
        (fraction, rest.drop fraction.length)
      | _ => ([], rest)
    match natural? 10 (whole ++ fraction), exponent? rest with
    | some digits, some exponent => some (nearest digits (exponent - fraction.length))
    | _, _ => none

/-- Reads a number in small letters. -/
def float? (text : Text) : Option Float :=
  let (negative, body) := signed (Text.trim text)
  (magnitude? body).map fun x => if negative then -x else x

end CodeAtlas.Decimal
