/-
  File:      CodeAtlas/Template/Render.lean
  Subject:   Filling templates in.

  * `Node.fill`: the text of a node. A block is filled in with the body that the
    outermost template gives it, and sees the names of the page, not those of the
    loops around it unless it says so.
  * `Form.fill`: the text of a template. One that names a parent hands its blocks
    on, and the text of the parent follows.
-/
import CodeAtlas.Template.Evaluation
import CodeAtlas.Template.Form

namespace CodeAtlas.Template

/-! ## 1. Parents -/

/-- The template that a value names. -/
def parentOf (library : Library) (value : Value) : Except Fault Form := do
  match value, value.asText? with
  | .undefined, _ => .error (.failed "the parent is undefined")
  | _, some name =>
    match library name with
    | .ok form => .ok form
    | .error .missing => .error (.failed ("no template " ++ name))
    | .error (.broken why) => .error (.failed why)
    | .error (.encoding fault) => .error (.encoding fault)
    | .error (.tooDeep excess) => .error (.tooDeep excess)
  | _, none =>
    match value.keyFault? with
    | some fault => .error fault
    | none => .error (.unfit .attribute ("'" ++ value.kind ++ "' object has no attribute 'split'"))

/-! ## 2. Nodes -/

/-- The text of a block. -/
def blockText (around : Surroundings) (blocks : Blocks) (scope : Scope) (name : Text)
    (use : BlockUse) : Except Fault Text :=
  if use.required && (blocks.bodies name).length < 2 then
    .error (.failed ("no block " ++ name ++ ", which is required"))
  else around.enter blocks name 0 (if use.seesAround then scope else around.page)

/-- The greatest number of times that a loop is entered from inside itself. -/
def againLimit : Nat := 250

/-- A loop that may be gone through again inside: `run` gets the loop itself, one level deeper,
and its own depth. -/
def goThrough (run : (again : Value → Fill Text) → (depth : Nat) → Value → Fill Text) :
    (fuel : Nat) → (depth : Nat) → Value → Fill Text
  | 0, _, _ => throw (.failed "a loop goes too deep")
  | fuel + 1, depth, items => run (goThrough run fuel (depth + 1)) depth items

mutual

/-- The text of a node. `scope` holds the names of the page and of the loops around. -/
def Node.fill (around : Surroundings) (scope : Scope) : Node → Fill Text
  | .text words guarded => Fill.unlessParent guarded (return words)
  | .print value guarded =>
    Fill.unlessParent guarded do (← value.value around scope).printed
  | .each target through test body otherwise recursive => do
    let run (again : Option (Value → Fill Text)) (depth : Nat) (items : Value) : Fill Text := do
      let loop ← Fill.enterLoop
      let inside :=
        { around with again := (again.map fun enter => (loop, enter)).toList ++ around.again }
      let passes (value : Value) : Fill Bool := do
        let names ← target.bind value
        match test with
        | none => return true
        | some test => return (← test.value around (names ++ scope)).isTrue
      let (values, fault) ← passing passes (← items.elements)
      if values.isEmpty && fault.isNone then fillAll inside scope otherwise
      else
        let texts ← values.zipIdx.mapM fun (value, n) => do
          let names ← target.bind value
          let current := (loopWord, Value.loop loop depth (n + 1) values)
          fillAll inside (names ++ [current] ++ scope) body
        match fault with
        | some fault => throw fault
        | none => return texts.flatten
    let items ← through.value around scope
    if recursive then goThrough (fun again => run (some again)) againLimit 0 items
    else run none 0 items
  | .choose condition yes no _ => do
    if (← condition.value around scope).isTrue then fillAll around scope yes
    else fillAll around scope no
  | .block name use _ guarded =>
    Fill.unlessParent guarded do blockText around (← get).blocks scope name use
  | .extend parent first => do
    let progress ← get
    if !first && progress.parent.isSome then throw (.failed "there are two parents")
    let form ← parentOf around.library (← parent.value around scope)
    set { progress with blocks := progress.blocks ++ form.blocks, parent := some form }
    return []
  | .extendAgain => throw (.failed "there are two parents")

/-- The text of nodes. -/
def Node.fillAll (around : Surroundings) (scope : Scope) : List Node → Fill Text
  | [] => return []
  | node :: rest => do
    let text ← node.fill around scope
    return text ++ (← fillAll around scope rest)

end

/-! ## 3. Templates -/

/-- The text of a body of a block. The body that the block has in the next template goes by a
name of its own. `fuel` bounds how deep blocks are nested. -/
def fillBlock (library : Library) :
    (fuel : Nat) → Blocks → (name : Text) → (body : Nat) → Scope → Except Fault Text
  | 0, _, _, _, _ => .error (.failed "blocks are nested too deeply")
  | fuel + 1, blocks, name, number, page =>
    let around : Surroundings := { library, page, enter := fillBlock library fuel }
    let nodes := ((blocks.bodies name)[number]?).getD []
    let text : Fill Text := do
      let inherited ← Fill.body name (number + 1)
      Node.fillAll around ((superWord, inherited) :: page) nodes
    text.run' { blocks }

/-- The text of a template whose parents, with the given blocks, are not filled in yet. `fuel`
bounds the number of parents. -/
def Form.fillWith (library : Library) (page : Scope) :
    (fuel : Nat) → Blocks → Form → Except Fault Text
  | 0, _, _ => .error (.failed "there are too many parents")
  | fuel + 1, blocks, form => do
    let enter (blocks : Blocks) := fillBlock library (blocks.length + 1) blocks
    let (text, progress) ← (Node.fillAll { library, page, enter } page form.nodes).run { blocks }
    match progress.parent with
    | none => return text
    | some parent => return text ++ (← fillWith library page fuel progress.blocks parent)

/-- The text of a template. -/
def Form.fill (library : Library) (page : Scope) (fuel : Nat) (form : Form) : Except Fault Text :=
  form.fillWith library page fuel form.blocks

end CodeAtlas.Template
