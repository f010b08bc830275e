/-
  File:      CodeAtlas/Template/Expression.lean
  Subject:   Expressions of templates, and how they are read.

  * `Expression`: names, constants, collections, parts, calls, filters, tests and
    operators.
  * `Target`: what a loop gives its values to.
  * `Parse.expression`: reads an expression. From the loosest to the closest, what
    binds its sides: the condition after a value, or, and, not, comparisons, sums,
    concatenation, products, powers, signs; parts, calls, filters and tests follow
    what they belong to.

  Reading is by descent on the words of a tag. `fuel` bounds its depth, which
  exceeds no more than a constant for each word.
-/
import CodeAtlas.Decimal.Reading
import CodeAtlas.Template.Lexeme

namespace CodeAtlas.Template

/-- What compares two values. -/
inductive Comparison where
  | equal
  | unequal
  | less
  | lessOrEqual
  | greater
  | greaterOrEqual
  | within
  | notWithin
  deriving DecidableEq, Repr

/-- What calculates with two values. -/
inductive Operator where
  | add
  | subtract
  | multiply
  | divide
  | floorDivide
  | remainder
  | power
  deriving DecidableEq, Repr

/-- An expression. -/
inductive Expression where
  | name (name : Text)
  | nothing
  | truth (value : Bool)
  | text (value : Text)
  | integer (value : Nat)
  | float (value : Float)
  /-- What is missing, such as the other side of a condition. -/
  | absent
  | tuple (items : List Expression)
  | list (items : List Expression)
  | table (keys values : List Expression)
  /-- A named part of a value. -/
  | part (of : Expression) (name : Text)
  | item (of key : Expression)
  | slice (of start stop step : Expression)
  /-- A call; `plain` tells that no argument is named or spread. -/
  | call (of : Expression) (arguments : List Expression) (plain : Bool)
  | filter (of : Expression) (name : Text) (arguments : List Expression) (plain : Bool)
  | test (of : Expression) (name : Text) (arguments : List Expression) (plain : Bool)
  | negative (of : Expression)
  | positive (of : Expression)
  | no (of : Expression)
  | both (left right : Expression)
  | either (left right : Expression)
  | operation (operator : Operator) (left right : Expression)
  | concatenation (items : List Expression)
  /-- A chain of comparisons; there are as many comparisons as values after the first. -/
  | comparison (first : Expression) (comparisons : List Comparison) (others : List Expression)
  | choice (condition yes no : Expression)

/-- What a loop gives its values to. -/
inductive Target where
  | name (name : Text)
  | tuple (items : List Target)

mutual

/-- The names that a target gives values to. -/
def Target.names : Target → List Text
  | .name word => [word]
  | .tuple items => namesAll items

/-- The names that targets give values to. -/
def Target.namesAll : List Target → List Text
  | [] => []
  | item :: rest => item.names ++ namesAll rest

end

mutual

/-- An expression as a target: a name, or a tuple of targets. -/
def Expression.target? : Expression → Option Target
  | .name word => some (.name word)
  | .tuple items => (targets? items).map .tuple
  | _ => none

/-- Expressions as targets. -/
def Expression.targets? : List Expression → Option (List Target)
  | [] => some []
  | first :: rest => do return (← first.target?) :: (← targets? rest)

end

/-! ## 1. Steps -/

/-- A step of reading the words of a tag. -/
abbrev Parse := StateT (List Lexeme) (Except Text)

namespace Parse

/-- Fails. -/
def fail {α : Type} (why : Text) : Parse α := throw why

/-- A name as a word. -/
def word (name : String) : Lexeme := .name name.toList

/-- A sign as a word. -/
def sign (text : String) : Lexeme := .sign text.toList

/-- The next word. -/
def peek : Parse (Option Lexeme) := do return (← get).head?

/-- Moves over a word. -/
def advance : Parse Unit := modify List.tail

/-- Whether a word is next. -/
def at? (lexeme : Lexeme) : Parse Bool := do return (← peek) == some lexeme

/-- Moves over a word if it is next. -/
def skip? (lexeme : Lexeme) : Parse Bool := do
  if ← at? lexeme then
    advance
    return true
  else return false

/-- Moves over a word, which must be next. -/
def expect (lexeme : Lexeme) : Parse Unit := do
  if !(← skip? lexeme) then fail "an unexpected word"

/-- A name, which must be next. -/
def name : Parse Text := do
  match ← peek with
  | some (.name found) =>
    advance
    return found
  | _ => fail "a name is missing"

/-- Nothing may be left. -/
def finish : Parse Unit := do
  if !(← get).isEmpty then fail "an unexpected word"

/-- Names after dots. -/
def dotted : (fuel : Nat) → Parse Text
  | 0 => return []
  | fuel + 1 => do
    if ← skip? (sign ".") then
      let found ← name
      return '.' :: found ++ (← dotted fuel)
    else return []

/-- The strings that follow each other, as one. -/
def strings : (fuel : Nat) → Parse Text
  | 0 => return []
  | fuel + 1 => do
    match ← peek with
    | some (.string body) =>
      advance
      return body ++ (← strings fuel)
    | _ => return []

/-- Operators between operands, from left to right. -/
def leftward (operator? : Lexeme → Option (Expression → Expression → Expression))
    (operand : Parse Expression) : (fuel : Nat) → Expression → Parse Expression
  | 0, left => return left
  | fuel + 1, left => do
    match (← peek).bind operator? with
    | some join =>
      advance
      leftward operator? operand fuel (join left (← operand))
    | none => return left

/-- Items with commas between them, and whether there is a comma. A comma may be last. -/
def commaItems {α : Type} (atEnd : Parse Bool) (item : Parse α) :
    (fuel : Nat) → Parse (List α × Bool)
  | 0 => fail "too many items"
  | fuel + 1 => do
    if ← atEnd then return ([], false)
    else
      let first ← item
      if ← skip? (sign ",") then
        let (rest, _) ← commaItems atEnd item fuel
        return (first :: rest, true)
      else return ([first], false)

/-- Items with commas between them, or a single item without. Nothing at all is a tuple only
between parentheses. -/
def tupleOf (atEnd : Parse Bool) (enclosed : Bool) (item : Parse Expression) (fuel : Nat) :
    Parse Expression := do
  match ← commaItems atEnd item fuel with
  | ([only], false) => return only
  | ([], _) => if enclosed then return .tuple [] else fail "an expression is missing"
  | (items, _) => return .tuple items

/-- Whether a tuple ends: with the tag, at a parenthesis, or at one of `ends`. -/
def atTupleEnd (ends : List Lexeme) : Parse Bool := do
  return (← peek).all fun next => (sign ")" :: ends).contains next

/-! ## 2. Operators -/

/-- What a sign compares. -/
def comparisonOf? (lexeme : Lexeme) : Option Comparison :=
  [(sign "==", Comparison.equal), (sign "!=", .unequal), (sign "<", .less),
   (sign "<=", .lessOrEqual), (sign ">", .greater), (sign ">=", .greaterOrEqual),
   (word "in", .within)].lookup lexeme

/-- The operators of sums. -/
def sumOf? (lexeme : Lexeme) : Option (Expression → Expression → Expression) :=
  ([(sign "+", Operator.add), (sign "-", .subtract)].lookup lexeme).map .operation

/-- The operators of products. -/
def productOf? (lexeme : Lexeme) : Option (Expression → Expression → Expression) :=
  ([(sign "*", Operator.multiply), (sign "/", .divide), (sign "//", .floorDivide),
    (sign "%", .remainder)].lookup lexeme).map .operation

/-- The operator of powers. -/
def powerOf? (lexeme : Lexeme) : Option (Expression → Expression → Expression) :=
  if lexeme == sign "**" then some (.operation .power) else none

/-- The operators between conditions. -/
def wordOf? (name : String) (join : Expression → Expression → Expression) (lexeme : Lexeme) :
    Option (Expression → Expression → Expression) :=
  if lexeme == word name then some join else none

/-- How an argument is given to a call. -/
inductive Giving where
  | plain
  | named
  | spread
  | spreadNamed
  deriving DecidableEq, Repr

/-- Whether an argument may follow others: plain ones come first, named ones not after spread
names, and each kind of spreading stands once. -/
def Giving.mayFollow (before : List Giving) : Giving → Bool
  | .plain => before.all (· == .plain)
  | .named => !before.contains .spreadNamed
  | .spread => !before.contains .spread && !before.contains .spreadNamed
  | .spreadNamed => !before.contains .spreadNamed

/-- A word that starts the argument of a test without parentheses. -/
def startsArgument : Lexeme → Bool
  | .name found => !(["else".toList, "or".toList, "and".toList].contains found)
  | .string _ | .integer _ | .float _ => true
  | .sign text => text == ['['] || text == ['\x7b']

/-! ## 3. Expressions -/

mutual

/-- An expression, perhaps with a condition after it. -/
def expression : (fuel : Nat) → Parse Expression
  | 0 => fail "too deep"
  | fuel + 1 => do conditions fuel (← disjunction fuel)

/-- The conditions after a value. -/
def conditions : (fuel : Nat) → Expression → Parse Expression
  | 0, value => return value
  | fuel + 1, value => do
    if ← skip? (word "if") then
      let condition ← disjunction fuel
      let no ← if ← skip? (word "else") then expression fuel else pure .absent
      conditions fuel (.choice condition value no)
    else return value

/-- An expression without a condition after it. -/
def disjunction : (fuel : Nat) → Parse Expression
  | 0 => fail "too deep"
  | fuel + 1 => do
    leftward (wordOf? "or" .either) (conjunction fuel) fuel (← conjunction fuel)

/-- What `or` joins. -/
def conjunction : (fuel : Nat) → Parse Expression
  | 0 => fail "too deep"
  | fuel + 1 => do
    leftward (wordOf? "and" .both) (negation fuel) fuel (← negation fuel)

/-- What `and` joins. -/
def negation : (fuel : Nat) → Parse Expression
  | 0 => fail "too deep"
  | fuel + 1 => do
    if ← skip? (word "not") then return .no (← negation fuel)
    else
      let first ← sum fuel
      let (comparisons, others) ← comparisonsFrom fuel
      return if comparisons.isEmpty then first else .comparison first comparisons others

/-- Comparisons with further values. -/
def comparisonsFrom : (fuel : Nat) → Parse (List Comparison × List Expression)
  | 0 => return ([], [])
  | fuel + 1 => do
    let next ← peek
    let found ←
      match next.bind comparisonOf? with
      | some comparison =>
        advance
        pure (some comparison)
      | none =>
        if (← get).take 2 == [word "not", word "in"] then
          advance
          advance
          pure (some .notWithin)
        else pure none
    match found with
    | none => return ([], [])
    | some comparison =>
      let value ← sum fuel
      let (comparisons, others) ← comparisonsFrom fuel
      return (comparison :: comparisons, value :: others)

/-- What is compared. -/
def sum : (fuel : Nat) → Parse Expression
  | 0 => fail "too deep"
  | fuel + 1 => do leftward sumOf? (concatenation fuel) fuel (← concatenation fuel)

/-- What is added. -/
def concatenation : (fuel : Nat) → Parse Expression
  | 0 => fail "too deep"
  | fuel + 1 => do
    let first ← product fuel
    match ← concatenated fuel with
    | [] => return first
    | rest => return .concatenation (first :: rest)

/-- What follows in a concatenation. -/
def concatenated : (fuel : Nat) → Parse (List Expression)
  | 0 => return []
  | fuel + 1 => do
    if ← skip? (sign "~") then
      let next ← product fuel
      return next :: (← concatenated fuel)
    else return []

/-- What is concatenated. -/
def product : (fuel : Nat) → Parse Expression
  | 0 => fail "too deep"
  | fuel + 1 => do leftward productOf? (power fuel) fuel (← power fuel)

/-- What is multiplied. -/
def power : (fuel : Nat) → Parse Expression
  | 0 => fail "too deep"
  | fuel + 1 => do leftward powerOf? (signed true fuel) fuel (← signed true fuel)

/-- A value with signs before it and, if `filtered`, filters and tests after it. -/
def signed (filtered : Bool) : (fuel : Nat) → Parse Expression
  | 0 => fail "too deep"
  | fuel + 1 => do
    let value ←
      if ← skip? (sign "-") then pure (.negative (← signed false fuel))
      else if ← skip? (sign "+") then pure (.positive (← signed false fuel))
      else primary fuel
    let whole ← parts fuel value
    if filtered then filters fuel whole else return whole

/-- A name, a constant, or what stands between brackets. -/
def primary : (fuel : Nat) → Parse Expression
  | 0 => fail "too deep"
  | fuel + 1 => do
    match ← peek with
    | some (.name found) =>
      advance
      if found == "true".toList || found == "True".toList then return .truth true
      else if found == "false".toList || found == "False".toList then return .truth false
      else if found == "none".toList || found == "None".toList then return .nothing
      else return .name found
    | some (.string _) => return .text (← strings fuel)
    | some (.integer value) =>
      advance
      return .integer value
    | some (.float digits) =>
      advance
      return .float ((Decimal.float? digits).getD 0.0)
    | some (.sign ['(']) =>
      advance
      let inside ← tupleOf (atTupleEnd []) true (expression fuel) fuel
      expect (sign ")")
      return inside
    | some (.sign ['[']) =>
      advance
      let (items, _) ← commaItems (at? (sign "]")) (expression fuel) fuel
      expect (sign "]")
      return .list items
    | some (.sign ['\x7b']) =>
      advance
      let (entries, _) ← commaItems (at? (sign "\x7d")) (entry fuel) fuel
      expect (sign "\x7d")
      return .table (entries.map (·.1)) (entries.map (·.2))
    | _ => fail "an expression is missing"

/-- A key and a value. -/
def entry : (fuel : Nat) → Parse (Expression × Expression)
  | 0 => fail "too deep"
  | fuel + 1 => do
    let key ← expression fuel
    expect (sign ":")
    return (key, ← expression fuel)

/-- The parts and calls after a value. -/
def parts : (fuel : Nat) → Expression → Parse Expression
  | 0, value => return value
  | fuel + 1, value => do
    match ← peek with
    | some (.sign ['.']) =>
      advance
      match ← peek with
      | some (.name found) =>
        advance
        parts fuel (.part value found)
      | some (.integer index) =>
        advance
        parts fuel (.item value (.integer index))
      | _ => fail "a name or a number is missing"
    | some (.sign ['[']) =>
      advance
      let found ← subscript value fuel
      expect (sign "]")
      parts fuel found
    | some (.sign ['(']) =>
      let (given, plain) ← arguments fuel
      parts fuel (.call value given plain)
    | _ => return value

/-- What stands between the brackets after a value. -/
def subscript (value : Expression) : (fuel : Nat) → Parse Expression
  | 0 => fail "too deep"
  | fuel + 1 => do
    if ← at? (sign "]") then return .item value (.tuple [])
    else
      let first ← if ← at? (sign ":") then pure .nothing else expression fuel
      if ← skip? (sign ":") then
        let bound : Parse Expression := do
          if (← at? (sign ":")) || (← at? (sign "]")) then return .nothing else expression fuel
        let stop ← bound
        let step ← if ← skip? (sign ":") then bound else pure .nothing
        return .slice value first stop step
      else
        match ← furtherKeys fuel with
        | [] => return .item value first
        | rest => return .item value (.tuple (first :: rest))

/-- The keys after the first; a comma may not be last. -/
def furtherKeys : (fuel : Nat) → Parse (List Expression)
  | 0 => return []
  | fuel + 1 => do
    if ← skip? (sign ",") then
      let next ← expression fuel
      return next :: (← furtherKeys fuel)
    else return []

/-- The arguments of a call between parentheses, and whether all of them are plain. -/
def arguments : (fuel : Nat) → Parse (List Expression × Bool)
  | 0 => fail "too deep"
  | fuel + 1 => do
    expect (sign "(")
    let (given, _) ← commaItems (at? (sign ")")) (argument fuel) fuel
    expect (sign ")")
    let givings := given.map (·.1)
    let inOrder := givings.zipIdx.all fun (giving, n) => giving.mayFollow (givings.take n)
    if inOrder then return (given.map (·.2), givings.all (· == .plain))
    else fail "arguments in a wrong order"

/-- An argument. -/
def argument : (fuel : Nat) → Parse (Giving × Expression)
  | 0 => fail "too deep"
  | fuel + 1 => do
    if ← skip? (sign "*") then return (.spread, ← expression fuel)
    else if ← skip? (sign "**") then return (.spreadNamed, ← expression fuel)
    else
      match (← get).take 2 with
      | [.name _, .sign ['=']] =>
        advance
        advance
        return (.named, ← expression fuel)
      | _ => return (.plain, ← expression fuel)

/-- The filters, tests and calls after a value. -/
def filters : (fuel : Nat) → Expression → Parse Expression
  | 0, value => return value
  | fuel + 1, value => do
    match ← peek with
    | some (.sign ['|']) =>
      advance
      let found := (← name) ++ (← dotted fuel)
      let (given, plain) ← if ← at? (sign "(") then arguments fuel else pure ([], true)
      filters fuel (.filter value found given plain)
    | some (.name ['i', 's']) =>
      advance
      let negated ← skip? (word "not")
      let found := (← name) ++ (← dotted fuel)
      let (given, plain) ← testArguments fuel
      let tested := Expression.test value found given plain
      filters fuel (if negated then .no tested else tested)
    | some (.sign ['(']) =>
      let (given, plain) ← arguments fuel
      filters fuel (.call value given plain)
    | _ => return value

/-- The arguments of a test. A single one needs no parentheses. -/
def testArguments : (fuel : Nat) → Parse (List Expression × Bool)
  | 0 => fail "too deep"
  | fuel + 1 => do
    if ← at? (sign "(") then arguments fuel
    else if ← at? (word "is") then fail "a test of a test"
    else if (← peek).any startsArgument then
      let value ← primary fuel
      return ([← parts fuel value], true)
    else return ([], true)

end

/-- A bound on the depth of what is left to read: each word opens at most this many levels. -/
def bound : Parse Nat := do return 16 * ((← get).length + 1)

/-- A value, or several with commas between them; `conditional` tells that conditions may follow
them, and `ends` which words end them. -/
def tuple (conditional : Bool) (ends : List Lexeme) : Parse Expression := do
  let fuel ← bound
  tupleOf (atTupleEnd ends) false (if conditional then expression fuel else disjunction fuel) fuel

/-- A single value. -/
def single : Parse Expression := do expression (← bound)

/-- The target of a loop, up to the word `in`. -/
def target : Parse Target := do
  let fuel ← bound
  let found ← tupleOf (atTupleEnd [word "in"]) false (primary fuel) fuel
  match found.target? with
  | some target => return target
  | none => fail "no target of a loop"

end Parse

end CodeAtlas.Template
