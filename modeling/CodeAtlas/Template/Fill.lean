/-
  File:      CodeAtlas/Template/Fill.lean
  Subject:   Steps of filling a template in.

  * `Library`: where templates come from.
  * `Scope`: the values of names, the innermost first.
  * `Progress`: what changes while a template is filled in: the parent that it has
    named, with the blocks of that one, and what its loops remember.
  * `Fill`: a step. It may fail.
  * `Surroundings`: what a step finds around it: blocks and loops that it may call.
-/
import CodeAtlas.Template.Form
import CodeAtlas.Template.Value

namespace CodeAtlas.Template

/-- Why a template cannot be had. -/
inductive LoadFault where
  | missing
  | broken (why : Text)
  | encoding (fault : DecodeFault)
  | tooDeep (excess : TooDeep)

/-- Where templates come from. -/
abbrev Library := Text → Except LoadFault Form

/-- The values of names, the innermost first. -/
abbrev Scope := List (Text × Value)

/-- How far the filling of a template has come. -/
structure Progress where
  /-- The bodies of the blocks, those of the parent among them once it is named. -/
  blocks : Blocks
  parent : Option Form := none
  /-- The number of loops that have been entered. -/
  loops : Nat := 0
  /-- The values that loops, by their numbers, have been asked about last. -/
  asked : List (Nat × List Value) := []

/-- A step of filling a template in. -/
abbrev Fill := StateT Progress (Except Fault)

/-- What a step finds around it. -/
structure Surroundings where
  library : Library
  /-- The names that blocks see. -/
  page : Scope
  /-- The text of a body of a block, for the names that it sees. -/
  enter : Blocks → (name : Text) → (body : Nat) → Scope → Except Fault Text
  /-- The text of a loop for other values, by the number of the loop, for those loops around that
  may be gone through again. -/
  again : List (Nat × (Value → Fill Text)) := []

namespace Fill

/-- A text, unless it is guarded and a parent has been named. -/
def unlessParent (guarded : Bool) (text : Fill Text) : Fill Text := do
  if guarded && (← get).parent.isSome then return []
  else text

/-- The number of a loop that is entered. -/
def enterLoop : Fill Nat := do
  let progress ← get
  set { progress with loops := progress.loops + 1 }
  return progress.loops

/-- Whether a loop is asked about other values than the last time. It remembers them. -/
def isChange (loop : Nat) (values : List Value) : Fill Bool := do
  let progress ← get
  if (progress.asked.lookup loop).any (Value.sameAll values) then return false
  else
    let others := progress.asked.filter fun (other, _) => other != loop
    set { progress with asked := (loop, values) :: others }
    return true

/-- A body of a block; undefined if the block has no such body. -/
def body (name : Text) (number : Nat) : Fill Value := do
  if number < ((← get).blocks.bodies name).length then return .block name number
  else return .undefined

/-- The text of a body of a block. -/
def bodyText (around : Surroundings) (name : Text) (number : Nat) : Fill Text := do
  around.enter (← get).blocks name number around.page

end Fill

end CodeAtlas.Template
