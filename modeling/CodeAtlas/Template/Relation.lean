/-
  File:      CodeAtlas/Template/Relation.lean
  Subject:   Comparing the values of templates.

  * `inOrder`: the order of numbers, of texts, and of lists by their first items
    that differ. What is seen of the keys of a table is ordered like sets.
  * `isWithin`: whether a value is in another.
  * `Comparison.holds`: all comparisons. Equality holds, or not, of any values.
-/
import CodeAtlas.Template.Attribute
import CodeAtlas.Template.Expression

namespace CodeAtlas.Template

open Value (undefinedFault)

/-- How a comparison is written. -/
def Comparison.sign : Comparison → Text
  | .equal => "=="
  | .unequal => "!="
  | .less => "<"
  | .lessOrEqual => "<="
  | .greater => ">"
  | .greaterOrEqual => ">="
  | .within => "in"
  | .notWithin => "not in"

/-- Whether a comparison of order allows an ordering. -/
def Comparison.allows : Comparison → Ordering → Bool
  | .less, found => found == .lt
  | .lessOrEqual, found => found != .gt
  | .greater, found => found == .gt
  | .greaterOrEqual, found => found != .lt
  | _, _ => false

/-- The order of texts, by the numbers of their characters and halves. -/
def textOrder (a b : Text) : Ordering := List.compareLex compare (Text.codes a) (Text.codes b)

/-- The order of sets, if one holds the other. -/
def setOrder? (a b : List Value) : Option Ordering :=
  match Value.areAmong a b, Value.areAmong b a with
  | true, true => some .eq
  | true, false => some .lt
  | false, true => some .gt
  | false, false => none

/-- The fault of values without an order. -/
def Comparison.fault (comparison : Comparison) (a b : Value) : Fault :=
  .type ("'" ++ comparison.sign ++ "' not supported between instances of '" ++ a.kind ++
    "' and '" ++ b.kind ++ "'")

/-- A comparison of order, of values that are no lists. -/
def Comparison.onSimple (comparison : Comparison) (a b : Value) : Except Fault Bool :=
  match a, b, a.asText?, b.asText? with
  | .undefined, _, _, _ | _, .undefined, _, _ => .error undefinedFault
  | _, _, some x, some y => .ok (comparison.allows (textOrder x y))
  | .view kind items, .view other others, _, _ =>
    if Value.isSetView kind && Value.isSetView other then
      .ok ((setOrder? items others).any comparison.allows)
    else .error (comparison.fault a b)
  | _, _, _, _ =>
    match a.numericOrder? b with
    | some found => .ok (found.any comparison.allows)
    | none => .error (comparison.fault a b)

mutual

/-- A comparison of order. -/
def inOrder (comparison : Comparison) : Value → Value → Except Fault Bool
  | .list items, .list others => inOrderAll comparison items others
  | .tuple items, .tuple others => inOrderAll comparison items others
  | a, b => comparison.onSimple a b

/-- A comparison of order, of lists. -/
def inOrderAll (comparison : Comparison) : List Value → List Value → Except Fault Bool
  | [], [] => .ok (comparison.allows .eq)
  | [], _ :: _ => .ok (comparison.allows .lt)
  | _ :: _, [] => .ok (comparison.allows .gt)
  | item :: rest, other :: others =>
    if Value.same item other then inOrderAll comparison rest others
    else inOrder comparison item other

end

/-- Whether a value is in another. -/
def isWithin (value container : Value) : Except Fault Bool :=
  match container, container.elements? with
  | .text body, _ | .markup body, _ =>
    match value.asText? with
    | some part => .ok (Text.hasPart part body)
    | none =>
      .error (.type ("'in <string>' requires string as left operand, not " ++ value.kind))
  | .table entries, _ =>
    match value.keyFault? with
    | some fault => .error fault
    | none => .ok (Value.lookup? value entries).isSome
  | .view kind items, _ =>
    match if kind == "dict_keys".toList then value.keyFault? else none with
    | some fault => .error fault
    | none => .ok (items.any (Value.same value))
  | _, some items => .ok (items.any (Value.same value))
  | _, none => .error (.type ("argument of type '" ++ container.kind ++ "' is not iterable"))

/-- Whether a comparison holds. -/
def Comparison.holds (comparison : Comparison) (a b : Value) : Except Fault Bool :=
  match comparison with
  | .equal => .ok (Value.same a b)
  | .unequal => .ok (!Value.same a b)
  | .within => isWithin a b
  | .notWithin => (isWithin a b).map (!·)
  | _ => inOrder comparison a b

end CodeAtlas.Template
