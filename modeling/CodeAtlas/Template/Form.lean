/-
  File:      CodeAtlas/Template/Form.lean
  Subject:   Templates whose structure has been checked.

  Once a template has named a parent, it shows nothing of its own but its blocks,
  and those where the parent has them. Where a parent is named for certain, what
  follows is left out; where one may have been named, it is guarded.

  * `Form`: the nodes of a template and the bodies of its blocks.
  * `Form.ofText`: the template of a text. Filters and tests must be known, unless
    a condition may keep them from being used; a loop may not give values to the
    name of the loop; a parent is named outside of loops and blocks; no two
    blocks have the same name; and the program of the template keeps the limits.
-/
import CodeAtlas.Template.Listing
import CodeAtlas.Template.Test

namespace CodeAtlas.Template

/-! ## 1. Names of filters and tests -/

mutual

/-- The first filter or test in an expression that does not exist. `soft` tells that a condition
may keep the expression from being used, so that any name will do. -/
def Expression.unknown? (soft : Bool) : Expression → Option Text
  | .name _ | .nothing | .truth _ | .text _ | .integer _ | .float _ | .absent => none
  | .tuple items | .list items | .concatenation items => unknownAmong? soft items
  | .table keys values => (unknownAmong? soft keys).or (unknownAmong? soft values)
  | .part of _ | .negative of | .positive of | .no of => of.unknown? soft
  | .item of key => (of.unknown? soft).or (key.unknown? soft)
  | .slice of start stop step =>
    (((of.unknown? soft).or (start.unknown? soft)).or (stop.unknown? soft)).or
      (step.unknown? soft)
  | .call of arguments _ => (of.unknown? soft).or (unknownAmong? soft arguments)
  | .filter of word arguments _ =>
    if soft || filterNames.contains (String.ofList word) then
      (of.unknown? soft).or (unknownAmong? soft arguments)
    else some word
  | .test of word arguments _ =>
    if soft || testNames.contains (String.ofList word) then
      (of.unknown? soft).or (unknownAmong? soft arguments)
    else some word
  | .both left right | .either left right | .operation _ left right =>
    (left.unknown? soft).or (right.unknown? soft)
  | .comparison first _ others => (first.unknown? soft).or (unknownAmong? soft others)
  | .choice condition yes other =>
    ((condition.unknown? true).or (yes.unknown? true)).or (other.unknown? true)

/-- The first filter or test in expressions that does not exist. -/
def Expression.unknownAmong? (soft : Bool) : List Expression → Option Text
  | [] => none
  | first :: rest => (first.unknown? soft).or (unknownAmong? soft rest)

end

/-! ## 2. Checking -/

/-- A step of checking a template. -/
abbrev Settling := StateT Parents (Except Text)

namespace Form

/-- Checks the filters and tests of an expression. -/
def checkNames (place : Place) (expression : Expression) : Settling Unit :=
  match expression.unknown? place.soft with
  | some name => throw ("no filter or test " ++ name)
  | none => pure ()

/-- What shows something: left out after the name of a parent, or guarded if one may have been
named. -/
def shows (place : Place) (check : Settling Unit) (node : (guarded : Bool) → Node) :
    Settling (List Node) := do
  if place.guards && (← get).known then return []
  else
    check
    return [node place.guards]

/-- The name of a parent. -/
def settleExtend (place : Place) (parent : Expression) : Settling (List Node) := do
  let ⟨known, count⟩ ← get
  if !place.top then throw "a parent is named inside a loop or a block".toList
  else if known then return [.extendAgain]
  else
    checkNames place parent
    set (⟨place.root, count + 1⟩ : Parents)
    return [.extend parent (count == 0)]

mutual

/-- Checks a node and settles what is guarded in it. What is left out has no nodes. -/
def settle (place : Place) : Node → Settling (List Node)
  | .text words _ => shows place (pure ()) (.text words)
  | .print value _ => shows place (checkNames place value) (.print value)
  | .each target through test body otherwise recursive => do
    if target.names.contains "loop".toList then throw "a loop gives values to its own name".toList
    checkNames place through
    test.forM (checkNames place.inLoop)
    let body ← settleAll place.inLoop body
    let otherwise ← settleAll place.inLoop otherwise
    return [.each target through test body otherwise recursive]
  | .choose condition yes no chained => do
    checkNames place.underCondition condition
    let yes ← settleAll place.underCondition yes
    let no ← settleAll place.underCondition no
    return [.choose condition yes no chained]
  | .block name use body _ => do
    let ⟨known, count⟩ ← get
    if place.top && known then return []
    else return [.block name use body (place.top && 0 < count)]
  | .extend parent _ => settleExtend place parent
  | .extendAgain => return [.extendAgain]

/-- Checks nodes one after another. After a second parent nothing is of use. -/
def settleAll (place : Place) : List Node → Settling (List Node)
  | [] => return []
  | node :: rest => do
    match ← settle place node with
    | [.extendAgain] => return [.extendAgain]
    | settled => return settled ++ (← settleAll place rest)

end

end Form

/-! ## 3. Templates -/

/-- The bodies of blocks by name. A block that several templates have, has its bodies from the
outermost template on. -/
abbrev Blocks := List (Text × List Node)

/-- The bodies of a block. -/
def Blocks.bodies (blocks : Blocks) (name : Text) : List (List Node) :=
  (blocks.filter fun (other, _) => other == name).map (·.2)

/-- A template. -/
structure Form where
  nodes : List Node
  blocks : Blocks

namespace Form

/-- The template of nodes. -/
def ofNodes (nodes : List Node) : Except Text Form := do
  let blocks := Node.blocksOf nodes
  if (blocks.map (·.1)).eraseDups.length == blocks.length then
    let root : Place := ⟨Node.extendsAny nodes, true, true, false⟩
    let (settled, parents) ← (settleAll root nodes).run ⟨false, 0⟩
    let bodies ← blocks.mapM fun (name, body) => do
      let (inside, _) ← (settleAll .inBlock body).run parents
      return (name, inside)
    return ⟨settled, bodies⟩
  else throw "two blocks have the same name".toList

/-- Why a text is no template. -/
inductive Defect where
  /-- It is not well formed. -/
  | broken (why : Text)
  /-- Its program exceeds a limit on a line. -/
  | tooDeep (limit : Limit) (line : Nat)

/-- The template of a text. -/
def ofText (text : Text) : Except Defect Form := do
  let nodes ← (do Node.ofParts (← Part.ofText text) : Except Text (List Node)).mapError .broken
  let form ← (ofNodes nodes).mapError .broken
  match excess? nodes with
  | some (limit, line) => throw (.tooDeep limit line)
  | none => return form

end Form

end CodeAtlas.Template
