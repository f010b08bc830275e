/-
  File:      CodeAtlas/Decimal/Integer.lean
  Subject:   Reading and writing integers.

  Blanks around a number do not matter, one sign may precede it, and its digits
  may be those of any script. Numbers to the base ten are read and written only
  up to a limit of digits, because the work grows with the square of their number.

  * `integer`: reads an integer to a base.
  * `integerText?`: writes an integer, if it is not too long.
-/
import CodeAtlas.Text.Blank
import CodeAtlas.Text.Numeral

namespace CodeAtlas.Decimal

/-- The greatest number of decimal digits that are read or written. -/
def digitLimit : Nat := 4300

/-- Why a text is no integer. -/
inductive IntegerFault where
  | notNumber
  /-- The number has more digits than are read. -/
  | tooLong (digits : Nat)
  deriving DecidableEq, Repr

/-- The wording for a number that is too long to be read or written. -/
def lengthMessage (detail : Text) : Text :=
  "Exceeds the limit (" ++ Text.ofNat digitLimit ++ " digits) for integer string conversion" ++
    detail ++ "; use sys.set_int_max_str_digits() to increase the limit"

/-- The wording for a number with too many digits to be read. -/
def tooLongMessage (digits : Nat) : Text :=
  lengthMessage (": value has " ++ Text.ofNat digits ++ " digits")

/-! ## 1. Reading -/

/-- The value of a digit, also of the letters that stand for digits from ten on. -/
def digit? (c : Char) : Option Nat :=
  if 'a' ≤ c && c ≤ 'z' then some (c.toNat - 'a'.toNat + 10)
  else if 'A' ≤ c && c ≤ 'Z' then some (c.toNat - 'A'.toNat + 10)
  else Text.decimalValue? c

/-- Whether a character is a digit to a base. -/
def isDigitOf (base : Nat) (c : Char) : Bool := (digit? c).any (· < base)

/-- The value of at least one digit to a base. -/
def natural? (base : Nat) (text : Text) : Option Nat :=
  if text.isEmpty then none
  else
    text.foldlM (fun value c =>
      (digit? c).bind fun d => if d < base then some (value * base + d) else none) 0

/-- Whether a sign is negative, and what follows it. -/
def signed : Text → Bool × Text
  | '-' :: rest => (true, rest)
  | '+' :: rest => (false, rest)
  | text => (false, text)

/-- The letter that may mark a base after a zero. -/
def baseMark? (base : Nat) : Option Char :=
  if base == 2 then some 'b' else if base == 8 then some 'o' else if base == 16 then some 'x'
  else none

/-- Drops the mark of a base. -/
def dropBaseMark (base : Nat) (text : Text) : Text :=
  match text with
  | '0' :: c :: rest => if baseMark? base == some c.toLower then rest else text
  | _ => text

/-- Reads an integer. The length of its digits matters before what follows them. -/
def integer (base : Nat) (text : Text) : Except IntegerFault Int :=
  let (negative, body) := signed (Text.trim text)
  let digits := (body.takeWhile (isDigitOf 10)).length
  if base == 10 && digitLimit < digits then .error (.tooLong digits)
  else
    match natural? base (dropBaseMark base body) with
    | some n => .ok (if negative then -n else n)
    | none => .error .notNumber

/-! ## 2. Writing -/

/-- The decimal digits of an integer, if they are not too many. -/
def integerText? (n : Int) : Option Text :=
  if n.natAbs < Nat.pow 10 digitLimit then some (Text.ofInt n) else none

end CodeAtlas.Decimal
