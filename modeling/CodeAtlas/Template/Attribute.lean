/-
  File:      CodeAtlas/Template/Attribute.lean
  Subject:   The parts of values: fields, methods, items, slices; and calls.

  * `Value.part`: a part by name. A field or a method goes before an entry of a
    table; what is not there is undefined, but an undefined value has no parts to
    ask for.
  * `Value.item`: a part by key. Here an entry goes first.
  * `Value.slice`: the items between two positions.
  * `Value.call`: the result of a call.
-/
import CodeAtlas.Template.Value
import CodeAtlas.Text.Blank
import CodeAtlas.Text.Lower

namespace CodeAtlas.Template.Value

/-! ## 1. Names -/

/-- The names that the methods of texts have. -/
def textMethods : List String :=
  ["capitalize", "casefold", "center", "count", "encode", "endswith", "expandtabs", "find",
   "format", "format_map", "index", "isalnum", "isalpha", "isascii", "isdecimal", "isdigit",
   "isidentifier", "islower", "isnumeric", "isprintable", "isspace", "istitle", "isupper", "join",
   "ljust", "lower", "lstrip", "maketrans", "partition", "removeprefix", "removesuffix", "replace",
   "rfind", "rindex", "rjust", "rpartition", "rsplit", "rstrip", "split", "splitlines",
   "startswith", "strip", "swapcase", "title", "translate", "upper", "zfill"]

/-- The names that the methods of a value have. -/
def methods : Value → List String
  | .text _ => textMethods
  | .markup _ => textMethods ++ ["escape", "striptags", "unescape"]
  | .list _ =>
    ["append", "clear", "copy", "count", "extend", "index", "insert", "pop", "remove", "reverse",
     "sort"]
  | .tuple _ | .range .. => ["count", "index"]
  | .table _ =>
    ["clear", "copy", "fromkeys", "get", "items", "keys", "pop", "popitem", "setdefault", "update",
     "values"]
  | .bool _ | .number _ =>
    ["as_integer_ratio", "bit_count", "bit_length", "conjugate", "from_bytes", "to_bytes"]
  | .float _ => ["as_integer_ratio", "conjugate", "fromhex", "hex", "is_integer"]
  | .view kind _ => if kind == "dict_values".toList then [] else ["isdisjoint"]
  | .loop .. => ["changed", "cycle"]
  | _ => []

/-- The names that the methods of all values have. -/
def commonMethods : List String :=
  ["__class__", "__delattr__", "__dir__", "__doc__", "__eq__", "__format__", "__ge__",
   "__getattribute__", "__getstate__", "__gt__", "__hash__", "__init__", "__init_subclass__",
   "__le__", "__lt__", "__ne__", "__new__", "__reduce__", "__reduce_ex__", "__repr__",
   "__setattr__", "__sizeof__", "__str__", "__subclasshook__"]

/-- Whether a value has a method of a name. -/
def hasMethod (value : Value) (name : Text) : Bool :=
  value.methods.contains (String.ofList name) || commonMethods.contains (String.ofList name)

/-- What a loop tells of its rounds. -/
def loopField? (depth round : Nat) (items : List Value) (name : Text) : Option Value :=
  let count := items.length
  let neighbour (place : Option Nat) : Value := (place.bind (items[·]?)).getD .undefined
  [("index".toList, Value.number round), ("index0".toList, .number (round - 1)),
   ("revindex".toList, .number (count - round + 1)), ("revindex0".toList, .number (count - round)),
   ("first".toList, .bool (round == 1)), ("last".toList, .bool (round == count)),
   ("length".toList, .number count), ("depth".toList, .number (depth + 1)),
   ("depth0".toList, .number depth),
   ("previtem".toList, neighbour (if round < 2 then Option.none else some (round - 2))),
   ("nextitem".toList, neighbour (some round))].lookup name

/-- The fields of a value that are no methods. -/
def field? (value : Value) (name : Text) : Option Value :=
  match value with
  | .record _ fields => fields.lookup name
  | .loop _ depth round items => loopField? depth round items name
  | .block word _ => if name == "name".toList then some (.text word) else Option.none
  | .range start stop step =>
    [("start".toList, Value.number start), ("stop".toList, .number stop),
     ("step".toList, .number step)].lookup name
  | .float x =>
    [("real".toList, Value.float x), ("imag".toList, .float 0.0)].lookup name
  | _ =>
    value.asNumber?.bind fun n =>
      [("real".toList, Value.number n), ("numerator".toList, .number n),
       ("imag".toList, .number 0), ("denominator".toList, .number 1)].lookup name

/-- A field or a method of a value. The class of a value is a function that makes such values. -/
def attribute? (value : Value) (name : Text) : Option Value :=
  match value.field? name with
  | some found => some found
  | Option.none =>
    if name == "__class__".toList then
      some (.function value.kind ("<class '" ++ value.kind ++ "'>"))
    else if value.hasMethod name then some (.method value name)
    else Option.none

/-! ## 2. Parts and items -/

/-- The item at a position; positions before zero count from the end. -/
def atIndex? {α : Type} (items : List α) (index : Int) : Option α :=
  let place := if index < 0 then index + items.length else index
  if place < 0 then Option.none else items[place.toNat]?

/-- The item that a key stands for. -/
def entry? (value key : Value) : Option Value :=
  match value, key.asNumber? with
  | .table entries, _ =>
    if key.keyObstacle?.isNone then lookup? key entries else Option.none
  | .list items, some index | .tuple items, some index => atIndex? items index
  | .text body, some index => (atIndex? (Text.characters body) index).map .text
  | .markup body, some index => (atIndex? (Text.characters body) index).map .markup
  | .range start stop step, some index => atIndex? (rangeItems start stop step) index
  | _, _ => Option.none

/-- The fault of asking an undefined value for something. -/
def undefinedFault : Fault := .failed "a value is undefined"

/-- A part by name. -/
def part (value : Value) (name : Text) : Except Fault Value :=
  match value with
  | .undefined => .error undefinedFault
  | _ =>
    match value.attribute? name with
    | some found => .ok found
    | Option.none => .ok ((value.entry? (.text name)).getD .undefined)

/-- A part by key. -/
def item (value key : Value) : Except Fault Value :=
  match value with
  | .undefined => .error undefinedFault
  | _ =>
    match value.entry? key, key.asText? with
    | some found, _ => .ok found
    | Option.none, some name => .ok ((value.attribute? name).getD .undefined)
    | Option.none, Option.none => .ok .undefined

/-! ## 3. Slices -/

/-- A bound of a slice; none is the end that the direction gives it. -/
def sliceBound (bound : Value) : Except Fault (Option Int) :=
  match bound, bound.asNumber? with
  | .none, _ => .ok Option.none
  | _, some n => .ok (some n)
  | _, Option.none =>
    .error (.type "slice indices must be integers or None or have an __index__ method")

/-- The positions of a slice of `count` items. -/
def slicePlaces (count : Nat) (start stop : Option Int) (step : Int) : List Nat :=
  let clamp (low high bound : Int) : Int :=
    let place := if bound < 0 then bound + count else bound
    if place < low then low else if high < place then high else place
  let (low, high) : Int × Int := if step < 0 then (-1, count - 1) else (0, count)
  let (first, last) := if step < 0 then (high, low) else (low, high)
  let opening := (start.map (clamp low high)).getD first
  let closing := (stop.map (clamp low high)).getD last
  (rangeItems opening closing step).filterMap fun place => place.asNumber?.map Int.toNat

/-- The items between two positions. -/
def slice (value start stop step : Value) : Except Fault Value := do
  let start ← sliceBound start
  let stop ← sliceBound stop
  let step := (← sliceBound step).getD 1
  let pick {α : Type} (items : List α) : Except Fault (List α) :=
    if step == 0 then .error (.unfit .value "slice step cannot be zero")
    else .ok ((slicePlaces items.length start stop step).filterMap (items[·]?))
  match value with
  | .undefined => .error undefinedFault
  | .list items => return .list (← pick items)
  | .tuple items => return .tuple (← pick items)
  | .text body => return .text (← pick (Text.characters body)).flatten
  | .markup body => return .markup (← pick (Text.characters body)).flatten
  | .table _ => .error (.type "unhashable type: 'slice'")
  | _ => .error (.type ("'" ++ value.kind ++ "' object is not subscriptable"))

/-! ## 4. Calls -/

/-- A call that is not supported. -/
def unsupported (what : Text) : Fault := .failed ("not supported: " ++ what)

/-- The fault of a number of arguments. -/
def countFault (name bound : Text) (limit given : Nat) : Fault :=
  .type (name ++ " expected " ++ bound ++ " " ++ Text.ofNat limit ++ " argument" ++
    (if limit == 1 then [] else ['s']) ++ ", got " ++ Text.ofNat given)

/-- A result that needs no arguments. -/
def withoutArguments (of : Value) (name : Text) (arguments : List Value) (result : Value) :
    Except Fault Value :=
  if arguments.isEmpty then .ok result
  else .error (.type (of.kind ++ "." ++ name ++ "() takes no arguments (" ++
    Text.ofNat arguments.length ++ " given)"))

/-- Calls a method of a table. -/
def callTable (entries : List (Value × Value)) (name : Text) (arguments : List Value) :
    Except Fault Value :=
  let nothing := withoutArguments (.table entries) name arguments
  match String.ofList name with
  | "values" => nothing (.view "dict_values" (entries.map (·.2)))
  | "keys" => nothing (.view "dict_keys" (entries.map (·.1)))
  | "items" => nothing (.view "dict_items" (entries.map fun (key, value) => .tuple [key, value]))
  | "copy" => nothing (.table entries)
  | "get" =>
    match arguments with
    | [] => .error (countFault name "at least" 1 0)
    | [_] | [_, _] =>
      let key := arguments.headD .none
      match key.keyFault? with
      | some fault => .error fault
      | Option.none => .ok ((lookup? key entries).getD (arguments.getD 1 .none))
    | _ => .error (countFault name "at most" 2 arguments.length)
  | _ => .error (unsupported name)

/-- Calls a method of a text. -/
def callText (of : Value) (body name : Text) (arguments : List Value) : Except Fault Value :=
  let again (result : Text) : Value :=
    match of with
    | .markup _ => .markup result
    | _ => .text result
  match String.ofList name, arguments with
  | "lower", _ => withoutArguments of name arguments (again (Text.lower body))
  | "strip", [] => .ok (again (Text.trim body))
  | "lstrip", [] => .ok (again (body.dropWhile Text.isBlank))
  | "rstrip", [] => .ok (again (Text.trimRight body))
  | "startswith", [.text start] => .ok (.bool (start.isPrefixOf body))
  | "endswith", [.text stop] => .ok (.bool (stop.isSuffixOf body))
  | _, _ => .error (unsupported name)

/-- Calls the function that makes ranges. -/
def callRange (arguments : List Value) : Except Fault Value := do
  let numbers ← arguments.mapM fun argument =>
    match argument, argument.asNumber? with
    | .undefined, _ => Except.error undefinedFault
    | _, some n => .ok n
    | _, Option.none =>
      .error (.type ("'" ++ argument.kind ++ "' object cannot be interpreted as an integer"))
  match numbers with
  | [] => .error (countFault "range" "at least" 1 0)
  | [stop] => .ok (.range 0 stop 1)
  | [start, stop] => .ok (.range start stop 1)
  | [start, stop, step] =>
    if step == 0 then .error (.unfit .value "range() arg 3 must not be zero")
    else .ok (.range start stop step)
  | _ => .error (countFault "range" "at most" 3 numbers.length)

/-- Calls a method. -/
def callMethod (of : Value) (name : Text) (arguments : List Value) : Except Fault Value :=
  match of with
  | .table entries => callTable entries name arguments
  | .text body | .markup body => callText of body name arguments
  | .loop _ _ round _ =>
    if name != "cycle".toList then .error (unsupported name)
    else if arguments.isEmpty then .error (.type "no items for cycling given")
    else .ok (arguments.getD ((round - 1) % arguments.length) .undefined)
  | _ => .error (unsupported name)

/-- What is wrong with calling a loop that may not be gone through again. -/
def loopCallMessage (given : Nat) : Text :=
  if given == 0 then "LoopContext.__call__() missing 1 required positional argument: 'iterable'"
  else if given == 1 then "The loop must have the 'recursive' marker to be called recursively."
  else "LoopContext.__call__() takes 2 positional arguments but " ++ Text.ofNat (given + 1) ++
    " were given"

/-- The result of a call; `plain` tells that no argument is named or spread. -/
def call (value : Value) (arguments : List Value) (plain : Bool) : Except Fault Value :=
  match value with
  | .undefined => .error undefinedFault
  | .method of name =>
    if plain then callMethod of name arguments else .error (unsupported name)
  | .function name _ =>
    if plain && name == "range".toList then callRange arguments
    else if plain && arguments.isEmpty && name == "dict".toList then .ok (.table [])
    else .error (unsupported name)
  | .loop .. => .error (.type (loopCallMessage arguments.length))
  | _ => .error (.type ("'" ++ value.kind ++ "' object is not callable"))

end CodeAtlas.Template.Value
