/-
  File:      CodeAtlas/Template/Node.lean
  Subject:   The structure of a template: text, values, loops, conditions, blocks.

  * `Node`: a piece of a template.
  * `Node.ofParts`: reading the pieces. Tags must be known and closed.
  * `blocksOf`: the blocks that a template defines, the nested ones among them.
-/
import CodeAtlas.Template.Expression
import CodeAtlas.Template.Part

namespace CodeAtlas.Template

/-- How a block is used. -/
structure BlockUse where
  /-- The names around it are seen inside. -/
  seesAround : Bool
  /-- Another template must fill it in. -/
  required : Bool
  deriving DecidableEq, Repr

/-- A piece of a template. What is `guarded` shows only as long as no parent has been named. -/
inductive Node where
  | text (text : Text) (guarded : Bool)
  | print (value : Expression) (guarded : Bool)
  /-- A loop over the values that pass the test; `otherwise` is used if there is none.
  `recursive` tells that the loop may be gone through again inside. -/
  | each (target : Target) (through : Expression) (test : Option Expression)
      (body otherwise : List Node) (recursive : Bool)
  /-- A choice; `chained` tells that `no` is a further condition of the same choice. -/
  | choose (condition : Expression) (yes no : List Node) (chained : Bool)
  | block (name : Text) (use : BlockUse) (body : List Node) (guarded : Bool)
  /-- The template that this one fills in; `first` tells that no other can have been named. -/
  | extend (parent : Expression) (first : Bool)
  /-- A second template to fill in. -/
  | extendAgain

namespace Node

/-! ## 1. Tags -/

/-- Reads the words of a tag, all of them. A colon may be last if `colon`. -/
def ofTag {α : Type} (colon : Bool) (read : Parse α) (words : List Lexeme) : Except Text α := do
  let whole : Parse α := do
    let result ← read
    if colon then
      let _ ← Parse.skip? (Parse.sign ":")
    Parse.finish
    return result
  let (result, _) ← whole.run words
  return result

/-- The head of a loop: target, values, the test that values must pass, and whether the loop may
be gone through again inside. -/
def loopHead : Parse (Target × Expression × Option Expression × Bool) := do
  let target ← Parse.target
  Parse.expect (Parse.word "in")
  let through ← Parse.tuple false [Parse.word "recursive"]
  let test ← if ← Parse.skip? (Parse.word "if") then some <$> Parse.single else pure none
  let recursive ← Parse.skip? (Parse.word "recursive")
  return (target, through, test, recursive)

/-- The head of a block: its name and its use. -/
def blockHead : Parse (Text × BlockUse) := do
  let name ← Parse.name
  let seesAround ← Parse.skip? (Parse.word "scoped")
  let required ← Parse.skip? (Parse.word "required")
  return (name, ⟨seesAround, required⟩)

/-- Whether a tag has a name and nothing else, or a colon if `colon`. -/
def isBare (name : String) (colon : Bool) (words : List Lexeme) : Bool :=
  words == [Parse.word name] || (colon && words == [Parse.word name, Parse.sign ":"])

/-- Whether nodes show nothing but blanks. -/
def isBlankText : Node → Bool
  | .text words _ => words.all Text.isBlank
  | _ => false

/-! ## 2. Nodes -/

mutual

/-- Reads nodes up to a tag whose name is in `stops`; that tag and the parts after it are left
over. Without stops all parts are read. `fuel` bounds the number of steps. -/
def readUntil (stops : List String) :
    (fuel : Nat) → List Part → Except Text (List Node × List Lexeme × List Part)
  | 0, _ => .error "too many parts"
  | _ + 1, [] => if stops.isEmpty then .ok ([], [], []) else .error "a tag is not closed"
  | fuel + 1, .plain words :: rest => do
    let (nodes, left) ← readUntil stops fuel rest
    .ok (.text words false :: nodes, left)
  | fuel + 1, .value lexemes :: rest => do
    let value ← ofTag false (Parse.tuple true []) lexemes
    let (nodes, left) ← readUntil stops fuel rest
    .ok (.print value false :: nodes, left)
  | fuel + 1, .tag (.name tag :: arguments) :: rest => do
    if stops.contains (String.ofList tag) then .ok ([], .name tag :: arguments, rest)
    else
      let (node, after) ← readTag (String.ofList tag) arguments fuel rest
      let (nodes, left) ← readUntil stops fuel after
      .ok (node :: nodes, left)
  | _ + 1, .tag _ :: _ => .error "a tag needs a name"

/-- Reads the node that a tag begins, and returns the parts after it. -/
def readTag (tag : String) (arguments : List Lexeme) :
    (fuel : Nat) → List Part → Except Text (Node × List Part)
  | 0, _ => .error "too many parts"
  | fuel + 1, rest => do
    match tag with
    | "for" =>
      let (target, through, test, recursive) ← ofTag true loopHead arguments
      let (body, stop, after) ← readUntil ["else", "endfor"] fuel rest
      let (otherwise, left) ← readElse "endfor" stop fuel after
      .ok (.each target through test body otherwise recursive, left)
    | "if" =>
      let condition ← ofTag true (Parse.tuple false []) arguments
      let (yes, stop, after) ← readUntil ["elif", "else", "endif"] fuel rest
      match stop with
      | .name ['e', 'l', 'i', 'f'] :: next =>
        let (inner, left) ← readTag "if" next fuel after
        .ok (.choose condition yes [inner] true, left)
      | _ =>
        let (no, left) ← readElse "endif" stop fuel after
        .ok (.choose condition yes no false, left)
    | "block" =>
      let (name, use) ← ofTag true blockHead arguments
      let (body, stop, after) ← readUntil ["endblock"] fuel rest
      if use.required && !body.all isBlankText then .error "a required block has a body"
      else if isBare "endblock" false stop || stop == [Parse.word "endblock", .name name] then
        .ok (.block name use body false, after)
      else .error "an unexpected word after endblock"
    | "extends" =>
      .ok (.extend (← ofTag false Parse.single arguments) true, rest)
    | _ => .error ("unknown tag " ++ tag.toList)

/-- Reads the nodes between `else` and the closing tag, if the tag that was reached is an
`else` and not the closing tag itself. -/
def readElse (closing : String) (stop : List Lexeme) :
    (fuel : Nat) → List Part → Except Text (List Node × List Part)
  | 0, _ => .error "too many parts"
  | fuel + 1, rest => do
    if isBare closing false stop then .ok ([], rest)
    else if isBare "else" true stop then
      let (nodes, stop, after) ← readUntil [closing] fuel rest
      if isBare closing false stop then .ok (nodes, after)
      else .error "an unexpected word in a closing tag"
    else .error "an unexpected word after else"

end

/-- Reads the nodes of a template. -/
def ofParts (parts : List Part) : Except Text (List Node) := do
  let (nodes, _) ← readUntil [] (3 * parts.length + 3) parts
  .ok nodes

/-! ## 3. Blocks -/

mutual

/-- The blocks that a node defines. -/
def blocks : Node → List (Text × List Node)
  | .block name _ body _ => (name, body) :: blocksOf body
  | .each _ _ _ body otherwise _ => blocksOf body ++ blocksOf otherwise
  | .choose _ yes no _ => blocksOf yes ++ blocksOf no
  | .text .. | .print .. | .extend .. | .extendAgain => []

/-- The blocks that nodes define. -/
def blocksOf : List Node → List (Text × List Node)
  | [] => []
  | node :: rest => node.blocks ++ blocksOf rest

end

end Node

end CodeAtlas.Template
