/-
  File:      CodeAtlas/Template/Test.lean
  Subject:   The tests of templates.

  * `testNames`: the tests that a template may name.
  * `kindTest?`: tests that look at the kind of a value only.
  * `Value.isIdentical`: values of which there is only one.
  * `applyTest`: whether a test holds. A test must be given as many values as it
    asks for.
-/
import CodeAtlas.Template.Filter
import CodeAtlas.Text.Capital

namespace CodeAtlas.Template

open Value (unsupported)

/-! ## 1. Names -/

/-- The tests that compare. -/
def comparisonTests : List (String × Comparison) :=
  [("eq", .equal), ("equalto", .equal), ("==", .equal), ("ne", .unequal), ("!=", .unequal),
   ("lt", .less), ("lessthan", .less), ("<", .less), ("le", .lessOrEqual), ("<=", .lessOrEqual),
   ("gt", .greater), ("greaterthan", .greater), (">", .greater), ("ge", .greaterOrEqual),
   (">=", .greaterOrEqual)]

/-- The tests that ask for one value more, and their names for it. -/
def binaryTests : List (String × Text) :=
  [("divisibleby", "num"), ("sameas", "other"), ("in", "seq")]

/-- The tests that ask for nothing but the value. -/
def unaryTests : List String :=
  ["boolean", "callable", "defined", "escaped", "even", "false", "filter", "float", "integer",
   "iterable", "lower", "mapping", "none", "number", "odd", "sequence", "string", "test", "true",
   "undefined", "upper"]

/-- The names of tests. -/
def testNames : List String :=
  comparisonTests.map (·.1) ++ binaryTests.map (·.1) ++ unaryTests

/-! ## 2. Kinds -/

/-- Whether a value has elements, though a loop may not go through them. -/
def isIterable : Value → Bool
  | .loop .. | .page _ => true
  | value => value.elements?.isSome

/-- Whether a value has a length and items at positions or keys. -/
def hasPositions : Value → Bool
  | .undefined | .text _ | .markup _ | .list _ | .tuple _ | .table _ | .range .. => true
  | _ => false

/-- Whether a value can be called. -/
def isCallable : Value → Bool
  | .method .. | .function .. | .loop .. | .block .. | .undefined => true
  | _ => false

/-- The tests for a kind of values. -/
def kindTest? (name : String) (value : Value) : Option Bool :=
  match name, value with
  | "defined", .undefined => some false
  | "defined", _ => some true
  | "undefined", .undefined => some true
  | "undefined", _ => some false
  | "none", .none => some true
  | "none", _ => some false
  | "boolean", .bool _ => some true
  | "boolean", _ => some false
  | "true", .bool found => some found
  | "true", _ => some false
  | "false", .bool found => some !found
  | "false", _ => some false
  | "integer", .number _ => some true
  | "integer", _ => some false
  | "float", .float _ => some true
  | "float", _ => some false
  | "number", _ => some value.isNumber
  | "string", _ => some value.asText?.isSome
  | "mapping", .table _ => some true
  | "mapping", _ => some false
  | "iterable", _ => some (isIterable value)
  | "sequence", _ => some (hasPositions value)
  | "escaped", .markup _ => some true
  | "escaped", _ => some false
  | "callable", _ => some (isCallable value)
  | "lower", _ => some (Text.isAllSmall value.shown)
  | "upper", _ => some (Text.isAllCapital value.shown)
  | _, _ => none

/-- Whether two values are one. Of small integers, of texts with at most one character of the
first 256, and of what stands for nothing or for a truth value there is only one. -/
def Value.isIdentical : Value → Value → Bool
  | .none, .none => true
  | .bool a, .bool b => a == b
  | .number m, .number n => m == n && -5 ≤ m && m ≤ 256
  | .text [], .text [] => true
  | .text [c], .text [d] => c == d && c.toNat < 256
  | .tuple [], .tuple [] => true
  | .function name _, .function other _ => name == other
  | _, _ => false

/-! ## 3. Testing -/

/-- Whether a number leaves nothing over, or not, when it is divided. -/
def dividesTest (value divisor : Value) (rest : Int) : Except Fault Bool := do
  return Value.same (← Operator.remainder.apply value divisor) (.number rest)

/-- Whether a value is one of some names. -/
def namesTest (names : List String) (value : Value) : Except Fault Bool :=
  match value.keyFault? with
  | some fault => .error fault
  | none => .ok (value.asText?.any fun name => names.contains (String.ofList name))

/-- The fault of a wrong number of values. -/
def testCountFault (name : String) (given : Nat) : Fault :=
  let word := name.toList
  match comparisonTests.lookup name, binaryTests.lookup name with
  | some comparison, _ => .type (operatorName comparison ++ " expected 2 arguments, got " ++
      Text.ofNat given)
  | none, some wanted =>
    if given < 2 then
      .type ("test_" ++ word ++ "() missing 1 required positional argument: '" ++ wanted ++ "'")
    else tooMany word 2
  | none, none =>
    if name == "callable" then
      .type ("callable() takes exactly one argument (" ++ Text.ofNat given ++ " given)")
    else if name == "filter" || name == "test" then
      .type ("test_" ++ word ++ "() takes 2 positional arguments but " ++
        Text.ofNat (given + 1) ++ " were given")
    else tooMany word 1
where
  operatorName : Comparison → Text
    | .equal => "eq"
    | .unequal => "ne"
    | .less => "lt"
    | .lessOrEqual => "le"
    | .greater => "gt"
    | _ => "ge"
  tooMany (word : Text) (limit : Nat) : Fault :=
    .type ("test_" ++ word ++ "() takes " ++ Text.ofNat limit ++ " positional argument" ++
      (if limit == 1 then [] else ['s']) ++ " but " ++ Text.ofNat given ++ " were given")

/-- Whether a test holds. -/
def applyTest (name : Text) (value : Value) (arguments : List Value) (plain : Bool) :
    Except Fault Bool :=
  let word := String.ofList name
  if !plain || !testNames.contains word then .error (unsupported name)
  else
    match arguments, comparisonTests.lookup word, kindTest? word value with
    | [other], some comparison, _ => comparison.holds value other
    | [], _, some holds => .ok holds
    | _, _, _ =>
      match word, arguments with
      | "odd", [] => dividesTest value (.number 2) 1
      | "even", [] => dividesTest value (.number 2) 0
      | "filter", [] => namesTest filterNames value
      | "test", [] => namesTest testNames value
      | "divisibleby", [divisor] => dividesTest value divisor 0
      | "in", [container] => isWithin value container
      | "sameas", [other] => .ok (value.isIdentical other)
      | _, _ => .error (testCountFault word (arguments.length + 1))

end CodeAtlas.Template
