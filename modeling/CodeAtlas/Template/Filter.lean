/-
  File:      CodeAtlas/Template/Filter.lean
  Subject:   The filters of templates.

  * `filterNames`: the filters that a template may name.
  * `applyFilter`: those of them that are supported.
-/
import CodeAtlas.Template.Calculation
import CodeAtlas.Template.Relation

namespace CodeAtlas.Template

open Value (undefinedFault unsupported)

/-- The names of filters. -/
def filterNames : List String :=
  ["abs", "attr", "batch", "capitalize", "center", "count", "d", "default", "dictsort", "e",
   "escape", "filesizeformat", "first", "float", "forceescape", "format", "groupby", "indent",
   "int", "items", "join", "last", "length", "list", "lower", "map", "max", "min", "pprint",
   "random", "reject", "rejectattr", "replace", "reverse", "round", "safe", "select", "selectattr",
   "slice", "sort", "string", "striptags", "sum", "title", "tojson", "trim", "truncate", "unique",
   "upper", "urlencode", "urlize", "wordcount", "wordwrap", "xmlattr"]

/-- The number of elements. -/
def lengthOf (value : Value) : Except Fault Value :=
  match value, value.elements? with
  | .loop _ _ _ items, _ => .ok (.number items.length)
  | _, some items => .ok (.number items.length)
  | _, none => .error (.type ("object of type '" ++ value.kind ++ "' has no len()"))

/-- A text with or without hidden characters, changed. -/
def onText (value : Value) (change : Text → Text) : Value :=
  match value with
  | .markup body => .markup (change body)
  | _ => .text (change value.shown)

/-- The elements from the last to the first; a text stays one. -/
def reversed (value : Value) : Except Fault Value :=
  match value, value.elements? with
  | .text body, _ => .ok (.text (Text.characters body).reverse.flatten)
  | .markup body, _ => .ok (.markup (Text.characters body).reverse.flatten)
  | _, some items => .ok (.list items.reverse)
  | _, none => .error (.failed "only what has elements can be reversed")

/-- The size of a number. -/
def absolute (value : Value) : Except Fault Value :=
  match value, value.asNumber? with
  | .undefined, _ => .error undefinedFault
  | .float x, _ => .ok (.float x.abs)
  | _, some n => .ok (.number n.natAbs)
  | _, none => .error (.type ("bad operand type for abs(): '" ++ value.kind ++ "'"))

/-- The entries of a table. -/
def entriesOf : Value → Except Fault Value
  | .table entries => .ok (.list (entries.map fun (key, value) => .tuple [key, value]))
  | .undefined => .ok (.list [])
  | _ => .error (.type "Can only get item pairs from a mapping.")

/-- A filter with plain arguments. -/
def plainFilter (name : Text) (value : Value) (arguments : List Value) : Except Fault Value := do
  match String.ofList name, arguments with
  | "e", [] | "escape", [] => value.escaped
  | "e", _ | "escape", _ =>
    .error (.type ("escape() takes 1 positional argument but " ++
      Text.ofNat (arguments.length + 1) ++ " were given"))
  | "forceescape", [] => .ok (.markup (Value.hideMarkup value.shown))
  | "safe", [] => .ok (.markup value.shown)
  | "string", [] => .ok (onText value fun body => body)
  | "length", [] | "count", [] => lengthOf value
  | "lower", [] => .ok (onText value Text.lower)
  | "trim", [] => .ok (onText value Text.trim)
  | "list", [] => .ok (.list (← value.elements))
  | "first", [] => .ok ((← value.elements).head?.getD .undefined)
  | "last", [] =>
    match value.elements? with
    | some items => .ok (items.getLast?.getD .undefined)
    | none => .error (.type ("'" ++ value.kind ++ "' object is not reversible"))
  | "reverse", [] => reversed value
  | "abs", [] => absolute value
  | "items", [] => entriesOf value
  | "sum", [] => (← value.elements).foldlM (Operator.add.apply · ·) (.number 0)
  | "format", _ => Operator.remainder.apply (onText value fun body => body) (.tuple arguments)
  | "attr", [name] =>
    match value, value.attribute? name.shown with
    | .undefined, _ => .error undefinedFault
    | _, found => .ok (found.getD .undefined)
  | "replace", [old, new] =>
    if old.shown.isEmpty then .error (unsupported name)
    else .ok (onText value (Text.replaceAll old.shown new.shown))
  | "join", _ =>
    let mark := (arguments.head?.map Value.shown).getD []
    .ok (.text (Text.join mark ((← value.elements).map Value.shown)))
  | "default", _ | "d", _ =>
    let usual := arguments.headD (.text [])
    let alsoFalse := (arguments.getD 1 (.bool false)).isTrue
    match value with
    | .undefined => .ok usual
    | _ => .ok (if alsoFalse && !value.isTrue then usual else value)
  | _, _ => .error (unsupported name)

/-- The result of a filter. -/
def applyFilter (name : Text) (value : Value) (arguments : List Value) (plain : Bool) :
    Except Fault Value :=
  if plain && filterNames.contains (String.ofList name) then plainFilter name value arguments
  else .error (unsupported name)

end CodeAtlas.Template
