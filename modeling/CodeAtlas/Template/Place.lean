/-
  File:      CodeAtlas/Template/Place.lean
  Subject:   Where the nodes of a template stand.

  * `Place`: inside of loops, conditions or blocks, or outside of them.
  * `Parents`: what is known of the parents that a template has named so far.
  * `Node.extendsAny`: whether a template may name a parent.
-/
import CodeAtlas.Template.Node

namespace CodeAtlas.Template

/-- Where in a template nodes stand. -/
structure Place where
  /-- What is shown here may come after the name of a parent. -/
  guards : Bool
  /-- Outside of loops and blocks. -/
  top : Bool
  /-- At the top, and not under a condition either. -/
  root : Bool
  /-- Right under a condition. -/
  soft : Bool

namespace Place

/-- Inside a block. -/
def inBlock : Place := ⟨false, false, false, false⟩

/-- The place inside a loop. -/
def inLoop (place : Place) : Place := ⟨place.guards, false, false, false⟩

/-- The place under a condition. -/
def underCondition (place : Place) : Place := { place with root := false, soft := true }

end Place

/-- What is known of the parents that a template has named so far. -/
structure Parents where
  /-- One has been named for certain. -/
  known : Bool
  /-- How often one is named. -/
  count : Nat

mutual

/-- Whether a node names a parent. -/
def Node.extends : Node → Bool
  | .text .. | .print .. => false
  | .each _ _ _ body otherwise _ => extendsAny body || extendsAny otherwise
  | .choose _ yes no _ => extendsAny yes || extendsAny no
  | .block _ _ body _ => extendsAny body
  | .extend .. | .extendAgain => true

/-- Whether one of some nodes names a parent. -/
def Node.extendsAny : List Node → Bool
  | [] => false
  | node :: rest => node.extends || extendsAny rest

end

end CodeAtlas.Template
