/-
  File:      CodeAtlas/Yaml/Value.lean
  Subject:   The values of scalars.

  * `Value`: what a node stands for. Collections refer to their parts by number.
  * `Fault`: why a text has no value. A text may be malformed, or a scalar may be
    impossible as a value of its kind, such as a date in a thirteenth month.
  * `scalarValue`: the value of a scalar of a kind.
-/
import CodeAtlas.Decimal.Reading
import CodeAtlas.Text.Base64
import CodeAtlas.Text.Lower
import CodeAtlas.Text.Quoted
import CodeAtlas.Yaml.Node

namespace CodeAtlas.Yaml

/-- A value. -/
inductive Value where
  | null
  | bool (value : Bool)
  | int (value : Int)
  | float (value : Float)
  | text (value : Text)
  | bytes (value : List UInt8)
  | list (items : List NodeId)
  /-- The entries of a mapping whose keys are texts. -/
  | map (entries : List (Text × NodeId))
  /-- A date or a time, or a collection of a rarer kind. -/
  | other

/-- Why a text has no value. -/
inductive Fault where
  | malformed (why : Text)
  /-- An escape asks for a character that does not exist. -/
  | noCharacter (code : Nat)
  | noInteger (base : Nat) (text : Text)
  /-- An integer with more digits than are read. -/
  | longInteger (digits : Nat)
  /-- An integer that no floating point number is near to. -/
  | hugeInteger
  | noFloat (text : Text)
  | noTruth (text : Text)
  /-- A number without digits. -/
  | noDigits
  | noTime
  /-- A collection in the place of a time. -/
  | collectionAsTime
  /-- A mapping that is its own default value. -/
  | endless
  | yearOutOfRange (year : Nat)
  | monthOutOfRange
  | dayOutOfRange
  | hourOutOfRange
  | minuteOutOfRange
  | secondOutOfRange
  /-- A distance from universal time, in minutes, of a day or more. -/
  | offsetOutOfRange (minutes : Int)
  deriving DecidableEq, Repr

namespace Fault

/-- A fault found while scanning. -/
def ofScan : ScanFault → Fault
  | .malformed why => .malformed why
  | .noCharacter code => .noCharacter code
  | .longVersion digits => .longInteger digits

/-- A span of time, as days and seconds. -/
def spanText (minutes : Int) : Text :=
  let days := minutes.fdiv 1440
  let seconds := (minutes.fmod 1440 * 60).toNat
  let sign : Text := if days < 0 then ['-'] else []
  "datetime.timedelta(days=" ++ sign ++ Text.ofNat days.natAbs ++
    (if seconds == 0 then [] else Text.join [] [", seconds=", Text.ofNat seconds]) ++ [')']

/-- The wording of a fault. -/
def message : Fault → Text
  | .malformed why => why
  | .noCharacter _ => "chr() arg not in range(0x110000)"
  | .noInteger base text =>
    "invalid literal for int() with base " ++ Text.ofNat base ++ ": " ++
      (Text.quoted text).take 200
  | .longInteger digits => Decimal.tooLongMessage digits
  | .hugeInteger => "int too large to convert to float"
  | .noFloat text => "could not convert string to float: " ++ Text.quoted text
  | .noTruth text => Text.quoted text
  | .noDigits => "string index out of range"
  | .noTime => "'NoneType' object has no attribute 'groupdict'"
  | .collectionAsTime => "expected string or bytes-like object, got 'list'"
  | .endless => "maximum recursion depth exceeded"
  | .yearOutOfRange year => "year " ++ Text.ofNat year ++ " is out of range"
  | .monthOutOfRange => "month must be in 1..12"
  | .dayOutOfRange => "day is out of range for month"
  | .hourOutOfRange => "hour must be in 0..23"
  | .minuteOutOfRange => "minute must be in 0..59"
  | .secondOutOfRange => "second must be in 0..59"
  | .offsetOutOfRange minutes =>
    "offset must be a timedelta strictly between -timedelta(hours=24) and timedelta(hours=24), not " ++
      spanText minutes ++ ['.']

end Fault

/-! ## 1. Scalars -/

/-- Reads an integer to a base. -/
def integerTo (base : Nat) (digits : Text) : Except Fault Int :=
  (Decimal.integer base digits).mapError fun
    | .notNumber => .noInteger base digits
    | .tooLong count => .longInteger count

/-- Reads an integer of any form; underscores do not matter. -/
def integer (text : Text) : Except Fault Int := do
  let (negative, body) := Decimal.signed (text.filter (· != '_'))
  let n ←
    match body with
    | [] => .error .noDigits
    | ['0'] => .ok 0
    | '0' :: 'b' :: rest => integerTo 2 rest
    | '0' :: 'x' :: rest => integerTo 16 rest
    | '0' :: _ => integerTo 8 body
    | _ => do
      let parts ← (body.splitOn ':').mapM (integerTo 10)
      .ok (parts.foldl (fun total part => total * 60 + part) 0)
  .ok (if negative then -n else n)

/-- The sum of parts, the last one first; each counts `unit` times, and sixty times its
predecessor. A unit must be near to a floating point number. -/
def sixtieths (unit : Nat) (total : Float) : List Float → Except Fault Float
  | [] => .ok total
  | part :: rest =>
    match Decimal.ofNat? unit with
    | some weight => sixtieths (unit * 60) (total + part * weight) rest
    | none => .error .hugeInteger

/-- Reads a floating point number. -/
def floatOf (text : Text) : Except Fault Float :=
  match Decimal.float? text with
  | some x => .ok x
  | none => .error (.noFloat text)

/-- Reads a number with a point; underscores and case do not matter. -/
def float (text : Text) : Except Fault Float := do
  let lowered := Text.lower (text.filter (· != '_'))
  let (negative, body) := Decimal.signed lowered
  let x ←
    if lowered.isEmpty then .error .noDigits
    else if body == ".inf".toList then .ok (1.0 / 0.0)
    else if body == ".nan".toList then .ok (0.0 / 0.0)
    else if body.contains ':' then do
      let parts ← (body.splitOn ':').mapM floatOf
      sixtieths 1 0.0 parts.reverse
    else floatOf body
  .ok (if negative then -x else x)

/-- Reads a truth value. -/
def truth (text : Text) : Except Fault Bool :=
  let word := Text.lower text
  if ["yes".toList, "true".toList, "on".toList].contains word then .ok true
  else if ["no".toList, "false".toList, "off".toList].contains word then .ok false
  else .error (.noTruth word)

/-- The number of days of a month. -/
def daysIn (year month : Nat) : Nat :=
  if month == 2 then
    if year % 4 == 0 && (year % 100 != 0 || year % 400 == 0) then 29 else 28
  else if [4, 6, 9, 11].contains month then 30
  else 31

/-- The fault of a date or a time that does not exist. -/
def Timestamp.fault? (stamp : Timestamp) : Option Fault :=
  let (hour, minute, second) := stamp.clock.getD (0, 0, 0)
  let offset := stamp.offset.getD 0
  if 1440 ≤ offset.natAbs then some (.offsetOutOfRange offset)
  else if stamp.year == 0 then some (.yearOutOfRange stamp.year)
  else if stamp.month == 0 || 12 < stamp.month then some .monthOutOfRange
  else if stamp.day == 0 || daysIn stamp.year stamp.month < stamp.day then some .dayOutOfRange
  else if 23 < hour then some .hourOutOfRange
  else if 59 < minute then some .minuteOutOfRange
  else if 59 < second then some .secondOutOfRange
  else none

/-- Checks a date or a time. -/
def checkTime (text : Text) : Except Fault Unit :=
  match timestamp? (withoutFeed text) with
  | none => .error .noTime
  | some stamp =>
    match stamp.fault? with
    | some fault => .error fault
    | none => .ok ()

/-- The value of a scalar. -/
def scalarValue (tag : Tag) (text : Text) : Except Fault Value :=
  match tag with
  | .null => .ok .null
  | .bool => (truth text).map .bool
  | .int => (integer text).map .int
  | .float => (float text).map .float
  | .timestamp => (checkTime text).map fun _ => .other
  | .str => .ok (.text text)
  | .binary =>
    match Base64.decode? text with
    | some bytes => .ok (.bytes bytes)
    | none => .error (.malformed "letters that stand for no bytes")
  | _ => .error (.malformed "a scalar of another kind")

end CodeAtlas.Yaml
