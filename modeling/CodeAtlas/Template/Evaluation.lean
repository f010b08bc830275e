/-
  File:      CodeAtlas/Template/Evaluation.lean
  Subject:   The values of expressions, and the targets of loops.

  * `Scope.value`: the value of a name. A name that is not in the scope may still be
    one of the functions that every template knows; any other is undefined.
  * `partOf`, `itemOf`, `callOf`: parts and calls, of blocks and loops too. These
    can be told only while the template is filled in.
  * `Expression.value`: the value of an expression. What decides a conjunction, a
    disjunction, a chain of comparisons or a choice keeps the rest from being
    looked at.
  * `Target.bind`: the names that a loop gives the parts of a value to. There must
    be as many parts as names.
-/
import CodeAtlas.Template.Fill
import CodeAtlas.Template.Test

namespace CodeAtlas.Template

/-! ## 1. Names -/

/-- The functions that every template knows, and how they are printed. -/
def knownFunctions : List (Text × Text) :=
  [("range", "<class 'range'>"),
   ("dict", "<class 'dict'>"),
   ("lipsum", "<function generate_lorem_ipsum>"),
   ("cycler", "<class 'jinja2.utils.Cycler'>"),
   ("joiner", "<class 'jinja2.utils.Joiner'>"),
   ("namespace", "<class 'jinja2.utils.Namespace'>")]

/-- The value of a name. -/
def Scope.value (scope : Scope) (name : Text) : Value :=
  match scope.lookup name, knownFunctions.lookup name with
  | some value, _ => value
  | none, some shown => .function name shown
  | none, none => .undefined

/-! ## 2. Tables -/

/-- Gives a key of a table its value. A key that is there keeps its place. -/
def setEntry (key value : Value) : List (Value × Value) → List (Value × Value)
  | [] => [(key, value)]
  | (other, old) :: rest =>
    if Value.same key other then (other, value) :: rest else (other, old) :: setEntry key value rest

/-- The table of keys and values. -/
def tableOf (entries : List (Value × Value)) : Except Fault Value :=
  match entries.findSome? fun (key, _) => key.keyFault? with
  | some fault => .error fault
  | none => .ok (.table (entries.foldl (fun table (key, value) => setEntry key value table) []))

/-! ## 3. Identity -/

/-- Whether two expressions name one place: the same name, or the same part of one place. -/
def Expression.samePlace : Expression → Expression → Bool
  | .name word, .name other => word == other
  | .part of word, .part whole other => word == other && of.samePlace whole
  | .item of (.integer n), .item whole (.integer m) => n == m && of.samePlace whole
  | .item of (.text key), .item whole (.text other) => key == other && of.samePlace whole
  | _, _ => false

/-- Whether a place that is looked at twice holds one and the same value. A missing value and a
method are made anew each time. -/
def Value.isKept : Value → Bool
  | .undefined | .method .. => false
  | _ => true

/-- Whether a test asks if a value is the one at its own place. -/
def isOwnPlaceTest (of : Expression) (value : Value) (word : Text) : List Expression → Bool
  | [other] => word == "sameas".toList && value.isKept && of.samePlace other
  | _ => false

/-! ## 4. Parts and calls -/

/-- A part by name. The parts of the template itself are its blocks, and a body of a block has
the next one as a part. -/
def partOf (whole : Value) (word : Text) : Fill Value :=
  match whole, whole.attribute? word with
  | .page _, none => Fill.body word 0
  | .block name number, none =>
    if word == superWord then Fill.body name (number + 1) else whole.part word
  | _, _ => whole.part word

/-- A part by key. -/
def itemOf (whole key : Value) : Fill Value :=
  match whole, key.asText? with
  | .page _, some word => do
    match ← Fill.body word 0 with
    | .undefined => partOf whole word
    | found => return found
  | .block .., some word => partOf whole word
  | _, _ => whole.item key

/-- The result of a call. A body of a block gives its text; so does a loop that may be gone
through again. -/
def callOf (around : Surroundings) (function : Value) (arguments : List Value) (plain : Bool) :
    Fill Value := do
  match function, arguments with
  | .block name number, [] => return .text (← Fill.bodyText around name number)
  | .block .., _ =>
    throw (.type ("BlockReference.__call__() takes 1 positional argument but " ++
      Text.ofNat (arguments.length + 1) ++ " were given"))
  | .loop loop .., [items] =>
    match around.again.lookup loop with
    | some again => return .text (← again items)
    | none => function.call arguments plain
  | .method (.loop loop ..) word, _ =>
    if word == "changed".toList then return .bool (← Fill.isChange loop arguments)
    else function.call arguments plain
  | _, _ => function.call arguments plain

/-! ## 5. Expressions -/

mutual

/-- The value of an expression. -/
def Expression.value (around : Surroundings) (scope : Scope) : Expression → Fill Value
  | .name word => return scope.value word
  | .nothing => return .none
  | .truth b => return .bool b
  | .text body => return .text body
  | .integer n => return .number n
  | .float x => return .float x
  | .absent => return .undefined
  | .tuple items => do return .tuple (← values around scope items)
  | .list items => do return .list (← values around scope items)
  | .table keys contents => do
    let keys ← values around scope keys
    let contents ← values around scope contents
    tableOf (keys.zip contents)
  | .part of word => do partOf (← of.value around scope) word
  | .item of key => do
    let whole ← of.value around scope
    itemOf whole (← key.value around scope)
  | .slice of start stop step => do
    let whole ← of.value around scope
    let start ← start.value around scope
    let stop ← stop.value around scope
    whole.slice start stop (← step.value around scope)
  | .call of arguments plain => do
    let function ← of.value around scope
    callOf around function (← values around scope arguments) plain
  | .filter of word arguments plain => do
    let subject ← of.value around scope
    applyFilter word subject (← values around scope arguments) plain
  | .test of word arguments plain => do
    let subject ← of.value around scope
    let holds ← applyTest word subject (← values around scope arguments) plain
    return .bool (holds || isOwnPlaceTest of subject word arguments)
  | .negative of => do signedValue true (← of.value around scope)
  | .positive of => do signedValue false (← of.value around scope)
  | .no of => do return .bool !(← of.value around scope).isTrue
  | .both left right => do
    let first ← left.value around scope
    if first.isTrue then right.value around scope else return first
  | .either left right => do
    let first ← left.value around scope
    if first.isTrue then return first else right.value around scope
  | .operation operator left right => do
    let first ← left.value around scope
    operator.apply first (← right.value around scope)
  | .concatenation items => do
    let texts ← (← values around scope items).mapM fun item => (item.printed : Fill Text)
    return .text texts.flatten
  | .comparison first comparisons others => do
    return .bool (← holdsAll around scope (← first.value around scope) comparisons others)
  | .choice condition yes other => do
    if (← condition.value around scope).isTrue then yes.value around scope
    else other.value around scope

/-- The values of expressions, from left to right. -/
def Expression.values (around : Surroundings) (scope : Scope) :
    List Expression → Fill (List Value)
  | [] => return []
  | first :: rest => do
    let value ← first.value around scope
    return value :: (← values around scope rest)

/-- Whether all comparisons of a chain hold. -/
def Expression.holdsAll (around : Surroundings) (scope : Scope) (left : Value) :
    List Comparison → List Expression → Fill Bool
  | compare :: comparisons, other :: others => do
    let right ← other.value around scope
    if ← compare.holds left right then holdsAll around scope right comparisons others
    else return false
  | _, _ => return true

end

/-! ## 6. Targets -/

/-- The parts of a value for a number of targets. -/
def partsFor (count : Nat) (value : Value) : Except Fault (List Value) :=
  match value.elements? with
  | none => .error (.type ("cannot unpack non-iterable " ++ value.kind ++ " object"))
  | some parts =>
    if parts.length < count then
      .error (.unfit .value ("not enough values to unpack (expected " ++ Text.ofNat count ++
        ", got " ++ Text.ofNat parts.length ++ ")"))
    else if count < parts.length then
      .error (.unfit .value ("too many values to unpack (expected " ++ Text.ofNat count ++ ")"))
    else .ok parts

mutual

/-- The names of a target with the values that they get, the last first. -/
def Target.bind (value : Value) : Target → Except Fault Scope
  | .name word => .ok [(word, value)]
  | .tuple targets => do bindAll (← partsFor targets.length value) targets

/-- The names of targets with the values that they get, the last first. -/
def Target.bindAll : List Value → List Target → Except Fault Scope
  | value :: values, target :: targets => do
    let first ← target.bind value
    return (← bindAll values targets) ++ first
  | _, _ => .ok []

end

/-- The values that pass a test, up to the first for which there is no telling, and the fault of
that one. -/
def passing (test : Value → Fill Bool) : List Value → Fill (List Value × Option Fault)
  | [] => return ([], none)
  | value :: rest => do
    match (test value).run (← get) with
    | .error fault => return ([], some fault)
    | .ok (passes, progress) =>
      set progress
      let (values, fault) ← passing test rest
      return (if passes then value :: values else values, fault)

end CodeAtlas.Template
