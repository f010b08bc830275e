/-
  File:      CodeAtlas/Template/Value.lean
  Subject:   The values that templates are filled with.

  * `Value`: texts, numbers, collections and records, and what a name stands for
    that nobody has given a value.
  * `Value.shown`: how a value is printed. An undefined value prints nothing.
  * `Value.printed`: the same, if its numbers are not too long.
  * `Value.elements`, `Value.isTrue`, `Value.same`: what a loop goes through, what
    a condition makes of a value, and which values are equal.
-/
import CodeAtlas.Decimal.Dyadic
import CodeAtlas.Template.Fault
import CodeAtlas.Text.Quoted

namespace CodeAtlas.Template

/-- A value in a template. -/
inductive Value where
  | undefined
  | none
  | bool (value : Bool)
  | number (value : Int)
  | float (value : Float)
  | text (value : Text)
  /-- A text in which the characters of HTML are hidden already. -/
  | markup (value : Text)
  | list (items : List Value)
  | tuple (items : List Value)
  | table (entries : List (Value × Value))
  /-- A value with named parts and a name for its kind. -/
  | record (kind : Text) (fields : List (Text × Value))
  /-- The keys, values or entries of a table. -/
  | view (kind : Text) (items : List Value)
  /-- The numbers from `start` on, before `stop`, in steps. -/
  | range (start stop step : Int)
  /-- Where a loop is: its own number, how often it has been entered from inside itself, the
  number of its round, from one on, and all it goes through. -/
  | loop (number depth round : Nat) (items : List Value)
  /-- A method of a value, before it is called. -/
  | method (of : Value) (name : Text)
  /-- A function that every template knows, by its name and how it is printed. -/
  | function (name shown : Text)
  /-- A body of a block, before it is called. -/
  | block (name : Text) (body : Nat)
  /-- The template itself, by how it is printed. Its parts are its blocks. -/
  | page (shown : Text)

namespace Value

/-! ## 1. Kinds -/

/-- The name of a value's kind. -/
def kind : Value → Text
  | .undefined => "Undefined"
  | .none => "NoneType"
  | .bool _ => "bool"
  | .number _ => "int"
  | .float _ => "float"
  | .text _ => "str"
  | .markup _ => "Markup"
  | .list _ => "list"
  | .tuple _ => "tuple"
  | .table _ => "dict"
  | .record kind _ => kind
  | .view kind _ => kind
  | .range .. => "range"
  | .loop .. => "LoopContext"
  | .method .. => "builtin_function_or_method"
  | .function .. => "type"
  | .block .. => "BlockReference"
  | .page _ => "TemplateReference"

/-- The numbers of a range. -/
def rangeItems (start stop step : Int) : List Value :=
  let span := if 0 < step then stop - start else start - stop
  let count := (span + step.natAbs - 1).toNat / step.natAbs
  (List.range count).map fun (n : Nat) => .number (start + step * n)

/-! ## 2. Printing -/

/-- Words between brackets, with commas. -/
def enclosed (opening closing : Char) (words : List Text) : Text :=
  [opening] ++ Text.join ", " words ++ [closing]

mutual

/-- A value as it is shown inside another. -/
def inner : Value → Text
  | .undefined => "Undefined"
  | .none => "None"
  | .bool value => if value then "True" else "False"
  | .number value => Text.ofInt value
  | .float value => Decimal.floatText value
  | .text value => Text.quoted value
  | .markup value => "Markup(" ++ Text.quoted value ++ ")"
  | .list items => enclosed '[' ']' (innerAll items)
  | .tuple [only] => '(' :: inner only ++ ",)"
  | .tuple items => enclosed '(' ')' (innerAll items)
  | .table entries => enclosed '\x7b' '\x7d' (innerEntries entries)
  | .record kind fields => kind ++ enclosed '(' ')' (innerFields fields)
  | .view kind items => kind ++ "(" ++ enclosed '[' ']' (innerAll items) ++ ")"
  | .range start stop step =>
    let bounds := [Text.ofInt start, Text.ofInt stop]
    "range" ++ enclosed '(' ')' (if step == 1 then bounds else bounds ++ [Text.ofInt step])
  | .loop _ _ round items =>
    "<LoopContext " ++ Text.ofNat round ++ "/" ++ Text.ofNat items.length ++ ">"
  | .method of name => "<built-in method " ++ name ++ " of " ++ of.kind ++ " object>"
  | .function _ shown => shown
  | .block name _ => "<block " ++ name ++ ">"
  | .page shown => shown

/-- The items of a list inside another value. -/
def innerAll : List Value → List Text
  | [] => []
  | item :: rest => inner item :: innerAll rest

/-- The entries of a table inside another value. -/
def innerEntries : List (Value × Value) → List Text
  | [] => []
  | (key, value) :: rest => (inner key ++ ": " ++ inner value) :: innerEntries rest

/-- The fields of a record inside another value. -/
def innerFields : List (Text × Value) → List Text
  | [] => []
  | (key, value) :: rest => (key ++ "=" ++ inner value) :: innerFields rest

end

/-- A value as it is printed. -/
def shown : Value → Text
  | .undefined => []
  | .text value => value
  | .markup value => value
  | value => inner value

mutual

/-- Whether a number in a value has too many digits to be written. -/
def isTooLong : Value → Bool
  | .number value => (Decimal.integerText? value).isNone
  | .list items | .tuple items | .view _ items => isAnyTooLong items
  | .table entries => isEntryTooLong entries
  | .record _ fields => isFieldTooLong fields
  | _ => false

/-- Whether a number in one of some values has too many digits. -/
def isAnyTooLong : List Value → Bool
  | [] => false
  | item :: rest => isTooLong item || isAnyTooLong rest

/-- Whether a number in one of some entries has too many digits. -/
def isEntryTooLong : List (Value × Value) → Bool
  | [] => false
  | (key, value) :: rest => isTooLong key || isTooLong value || isEntryTooLong rest

/-- Whether a number in one of some fields has too many digits. -/
def isFieldTooLong : List (Text × Value) → Bool
  | [] => false
  | (_, value) :: rest => isTooLong value || isFieldTooLong rest

end

/-- A value as it is printed, unless a number in it has too many digits. -/
def printed (value : Value) : Except Fault Text :=
  if value.isTooLong then .error (.unfit .value (Decimal.lengthMessage []))
  else .ok value.shown

/-- Hides the characters of HTML. -/
def hideMarkup (text : Text) : Text :=
  text.flatMap fun c =>
    if c == '&' then "&amp;" else if c == '<' then "&lt;" else if c == '>' then "&gt;"
    else if c == '\'' then "&#39;" else if c == '"' then "&#34;" else [c]

/-- Hides the characters of HTML, unless that has been done. -/
def escaped : Value → Except Fault Value
  | .markup value => .ok (.markup value)
  | value => value.printed.map fun text => .markup (hideMarkup text)

/-! ## 3. Truth, elements, equality -/

/-- The elements of a value that has some. -/
def elements? : Value → Option (List Value)
  | .undefined => some []
  | .list items | .tuple items | .view _ items => some items
  | .table entries => some (entries.map (·.1))
  | .text value | .markup value => some ((Text.characters value).map .text)
  | .range start stop step => some (rangeItems start stop step)
  | _ => Option.none

/-- What a loop goes through. -/
def elements (value : Value) : Except Fault (List Value) :=
  match value.elements? with
  | some items => .ok items
  | Option.none => .error (.type ("'" ++ value.kind ++ "' object is not iterable"))

/-- Whether a condition holds. -/
def isTrue : Value → Bool
  | .undefined | .none => false
  | .bool value => value
  | .number value => value != 0
  | .float value => value != 0.0
  | .record .. | .loop .. | .method .. | .function .. | .block .. | .page _ => true
  | value => value.elements?.any (!·.isEmpty)

/-- Truth values count as numbers. -/
def asNumber? : Value → Option Int
  | .bool value => some (if value then 1 else 0)
  | .number value => some value
  | _ => Option.none

/-- Whether a value is a number of any kind. -/
def isNumber : Value → Bool
  | .float _ => true
  | value => value.asNumber?.isSome

/-- How two numbers compare; neither is rounded. The inner option is none if there is no telling
because one of them is not a number at all. -/
def numericOrder? (a b : Value) : Option (Option Ordering) :=
  match a, b, a.asNumber?, b.asNumber? with
  | _, _, some m, some n => some (some (compare m n))
  | _, .float y, some m, _ => some (Decimal.orderWith m y)
  | .float x, _, _, some n => some ((Decimal.orderWith n x).map Ordering.swap)
  | .float x, .float y, _, _ => some (Decimal.order x y)
  | _, _, _, _ => Option.none

/-- Texts with or without hidden characters. -/
def asText? : Value → Option Text
  | .text value | .markup value => some value
  | _ => Option.none

/-- Whether a view of a table compares like a set: that of its keys and that of its entries. -/
def isSetView (kind : Text) : Bool := kind != "dict_values".toList

mutual

/-- Whether two values are equal. Numbers are compared by value, tables and what is seen of
their keys without regard to order. -/
def same : Value → Value → Bool
  | .undefined, .undefined => true
  | .none, .none => true
  | .list items, .list others => sameAll items others
  | .tuple items, .tuple others => sameAll items others
  | .table entries, .table others =>
    entries.length == others.length && sameEntries entries others
  | .record kind fields, .record other others => kind == other && sameFields fields others
  | .view kind items, .view other others =>
    isSetView kind && isSetView other && items.length == others.length && areAmong items others
  | .range start stop step, .range first last stride =>
    (rangeItems start stop step).map asNumber? == (rangeItems first last stride).map asNumber?
  | .loop which .., .loop other .. => which == other
  | .method of name, .method other word => name == word && same of other
  | .function name _, .function other _ => name == other
  | .block name body, .block other place => name == other && body == place
  | .page _, .page _ => true
  | value, other =>
    match value.asText?, other.asText? with
    | some words, some others => words == others
    | _, _ => value.numericOrder? other == some (some .eq)

/-- Whether lists are equal item by item. -/
def sameAll : List Value → List Value → Bool
  | [], [] => true
  | item :: rest, other :: others => same item other && sameAll rest others
  | _, _ => false

/-- Whether every item is among others. -/
def areAmong : List Value → List Value → Bool
  | [], _ => true
  | item :: rest, others => others.any (same item) && areAmong rest others

/-- Whether every entry is among others. -/
def sameEntries : List (Value × Value) → List (Value × Value) → Bool
  | [], _ => true
  | (key, value) :: rest, others =>
    (others.any fun (other, found) => same key other && same value found) &&
      sameEntries rest others

/-- Whether fields are equal one by one. -/
def sameFields : List (Text × Value) → List (Text × Value) → Bool
  | [], [] => true
  | (name, value) :: rest, (other, found) :: others =>
    name == other && same value found && sameFields rest others
  | _, _ => false

end

/-- The value of a key in a table. -/
def lookup? (key : Value) (entries : List (Value × Value)) : Option Value :=
  (entries.find? fun (other, _) => same key other).map (·.2)

mutual

/-- The kind of what keeps a value from being a key: it, or a part of it, may change. A record
may change if it has a part that may. -/
def keyObstacle? : Value → Option Text
  | .list _ => some "list"
  | .table _ => some "dict"
  | .record kind fields => if fieldsChange fields then some kind else Option.none
  | .view kind _ => if isSetView kind then some kind else Option.none
  | .tuple items => firstObstacle? items
  | _ => Option.none

/-- The kind of the first obstacle in items. -/
def firstObstacle? : List Value → Option Text
  | [] => Option.none
  | item :: rest => (keyObstacle? item).or (firstObstacle? rest)

/-- Whether a field may change. -/
def fieldsChange : List (Text × Value) → Bool
  | [] => false
  | (_, value) :: rest => (keyObstacle? value).isSome || fieldsChange rest

end

/-- The fault of a value that cannot be a key, if it cannot. -/
def keyFault? (value : Value) : Option Fault :=
  value.keyObstacle?.map fun kind => .type ("unhashable type: '" ++ kind ++ "'")

end Value

end CodeAtlas.Template
