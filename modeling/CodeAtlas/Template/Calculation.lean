/-
  File:      CodeAtlas/Template/Calculation.lean
  Subject:   Calculating with the values of templates.

  * `Operator.onIntegers`, `Operator.onFloats`: numbers. Integers are exact; their
    quotient is the nearest floating point number; division with a remainder goes
    to the floor.
  * `Operator.apply`: any values. Texts and lists are joined and repeated, and
    values are filled into the directives of a text.
  * `signedValue`: a number with a sign before it.
-/
import CodeAtlas.Template.Directive
import CodeAtlas.Template.Expression

namespace CodeAtlas.Template

open Value (undefinedFault unsupported)

/-! ## 1. Numbers -/

/-- How an operator is written. -/
def Operator.sign : Operator → Text
  | .add => "+"
  | .subtract => "-"
  | .multiply => "*"
  | .divide => "/"
  | .floorDivide => "//"
  | .remainder => "%"
  | .power => "** or pow()"

/-- A division by zero. -/
def zeroFault (message : Text) : Fault := .unfit .division message

/-- A result that is too large. -/
def sizeFault (message : Text) : Fault := .unfit .overflow message

/-- An integer as a floating point number. -/
def floatOfInteger (n : Int) : Except Fault Float :=
  match Decimal.ofInt? n with
  | some x => .ok x
  | none => .error (sizeFault "int too large to convert to float")

/-- A power of floating point numbers. A root of a negative number is not supported. -/
def floatPower (a b : Float) : Except Fault Value :=
  let result := Float.pow a b
  if a == 0.0 && b < 0.0 then .error (zeroFault "0.0 cannot be raised to a negative power")
  else if a < 0.0 && a.isFinite && b.isFinite && b.floor != b then .error (unsupported "**")
  else if result.isInf && a.isFinite && b.isFinite then
    .error (sizeFault "(34, 'Numerical result out of range')")
  else .ok (.float result)

/-- Calculates with integers. -/
def Operator.onIntegers (operator : Operator) (a b : Int) : Except Fault Value :=
  match operator with
  | .add => .ok (.number (a + b))
  | .subtract => .ok (.number (a - b))
  | .multiply => .ok (.number (a * b))
  | .divide =>
    if b == 0 then .error (zeroFault "division by zero")
    else
      match Decimal.quotient? a b with
      | some x => .ok (.float x)
      | none => .error (sizeFault "integer division result too large for a float")
  | .floorDivide =>
    if b == 0 then .error (zeroFault "integer division or modulo by zero")
    else .ok (.number (a.fdiv b))
  | .remainder =>
    if b == 0 then .error (zeroFault "integer modulo by zero") else .ok (.number (a.fmod b))
  | .power =>
    if 0 ≤ b then .ok (.number (Int.pow a b.toNat))
    else do floatPower (← floatOfInteger a) (← floatOfInteger b)

/-- Calculates with floating point numbers. -/
def Operator.onFloats (operator : Operator) (a b : Float) : Except Fault Value :=
  match operator with
  | .add => .ok (.float (a + b))
  | .subtract => .ok (.float (a - b))
  | .multiply => .ok (.float (a * b))
  | .divide =>
    if b == 0.0 then .error (zeroFault "float division by zero") else .ok (.float (a / b))
  | .floorDivide =>
    if b == 0.0 then .error (zeroFault "float floor division by zero")
    else .ok (.float (Decimal.floorQuotient a b))
  | .remainder =>
    if b == 0.0 then .error (zeroFault "float modulo")
    else .ok (.float (Decimal.floorRemainder a b))
  | .power => floatPower a b

/-- Calculates with numbers of any kind; none for other values. -/
def Operator.onNumbers? (operator : Operator) (a b : Value) : Option (Except Fault Value) :=
  match a, b, a.asNumber?, b.asNumber? with
  | _, _, some m, some n => some (operator.onIntegers m n)
  | .float x, .float y, _, _ => some (operator.onFloats x y)
  | .float x, _, _, some n => some do operator.onFloats x (← floatOfInteger n)
  | _, .float y, some m, _ => some do operator.onFloats (← floatOfInteger m) y
  | _, _, _, _ => none

/-! ## 2. Texts and lists -/

/-- Joins two values of one kind. -/
def joined? (a b : Value) : Option Value :=
  match a, b with
  | .text x, .text y => some (.text (x ++ y))
  | .markup x, .text y => some (.markup (x ++ Value.hideMarkup y))
  | .text x, .markup y => some (.markup (Value.hideMarkup x ++ y))
  | .markup x, .markup y => some (.markup (x ++ y))
  | .list x, .list y => some (.list (x ++ y))
  | .tuple x, .tuple y => some (.tuple (x ++ y))
  | _, _ => none

/-- Repeats a value. -/
def repeated? (value : Value) (times : Int) : Option Value :=
  let copies {α : Type} (items : List α) : List α :=
    if items.isEmpty then [] else (List.replicate times.toNat items).flatten
  match value with
  | .text body => some (.text (copies body))
  | .markup body => some (.markup (copies body))
  | .list items => some (.list (copies items))
  | .tuple items => some (.tuple (copies items))
  | _ => none

/-- Whether a value is a text, a list or a tuple. -/
def isSequence (value : Value) : Bool := (repeated? value 0).isSome

/-- The numbers of times that something can be repeated lie within this bound. -/
def timesLimit : Int := Nat.pow 2 63

/-- Repeats a value a number of times that is not out of all bounds. -/
def repeatedWithin? (value : Value) (times : Int) : Option (Except Fault Value) :=
  (repeated? value (if times < timesLimit then times else 0)).map fun result =>
    if -timesLimit ≤ times && times < timesLimit then .ok result
    else .error (sizeFault "cannot fit 'int' into an index-sized integer")

/-- Texts, lists and tuples joined or repeated. -/
def Operator.onSequences? (operator : Operator) (a b : Value) : Option (Except Fault Value) :=
  match operator with
  | .add => (joined? a b).map .ok
  | .multiply =>
    match a.asNumber?, b.asNumber? with
    | _, some times => repeatedWithin? a times
    | some times, none => repeatedWithin? b times
    | none, none => none
  | _ => none

/-! ## 3. Any values -/

/-- The fault of values that an operator does not take. -/
def Operator.fault (operator : Operator) (a b : Value) : Fault :=
  match operator with
  | .multiply =>
    if isSequence a || isSequence b then
      .type ("can't multiply sequence by non-int of type '" ++ (if isSequence a then b else a).kind ++
        "'")
    else usual
  | .add =>
    if isSequence a then
      let kind : Text := if a.asText?.isSome then "str" else a.kind
      .type ("can only concatenate " ++ kind ++ " (not \"" ++ b.kind ++ "\") to " ++ kind)
    else usual
  | _ => usual
where
  usual : Fault :=
    .type ("unsupported operand type(s) for " ++ operator.sign ++ ": '" ++ a.kind ++ "' and '" ++
      b.kind ++ "'")

/-- Calculates. -/
def Operator.apply (operator : Operator) (a b : Value) : Except Fault Value :=
  match operator, a, b with
  | .remainder, .text body, _ => do return .text (← fillDirectives id body b)
  | .remainder, .markup body, _ => do return .markup (← fillDirectives Value.hideMarkup body b)
  | _, .undefined, _ | _, _, .undefined => .error undefinedFault
  | _, _, _ =>
    match operator.onNumbers? a b, operator.onSequences? a b with
    | some result, _ => result
    | none, some result => result
    | none, none => .error (operator.fault a b)

/-- A number with a sign before it. -/
def signedValue (negative : Bool) (value : Value) : Except Fault Value :=
  match value, value.asNumber? with
  | .undefined, _ => .error undefinedFault
  | .float x, _ => .ok (.float (if negative then -x else x))
  | _, some n => .ok (.number (if negative then -n else n))
  | _, none =>
    .error (.type ("bad operand type for unary " ++ (if negative then ['-'] else ['+']) ++ ": '" ++
      value.kind ++ "'"))

end CodeAtlas.Template
