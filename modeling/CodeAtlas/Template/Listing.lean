/-
  File:      CodeAtlas/Template/Listing.lean
  Subject:   The program that a template is carried out by, as far as its limits go.

  A template is carried out by a program of its own: a function for the page and
  one for each block. A loop, a condition and a guard head lines that are indented
  below them; everything else is a line. The language of the program limits how
  far lines are indented, how many loops of one function stand inside each other,
  and how many brackets are open at once. Only the number of lines and these three
  depths matter here.

  * `Statement`: a part of the program.
  * `Expression.brackets`: how many brackets an expression opens at once.
  * `Node.listing`: the statements of a node. Names are looked up at the start of
    the function or loop that uses them first, a line for each.
  * `excess?`: the first line of a template's program that exceeds a limit. The
    whole program is read, line by line, before its loops are looked at.
-/
import CodeAtlas.Template.Fault
import CodeAtlas.Template.Place

namespace CodeAtlas.Template

/-! ## 1. Statements -/

/-- What lines are indented below. -/
inductive Head where
  | condition
  | loop
  | function
  deriving DecidableEq, Repr

/-- A part of a program, with the number of brackets that are open at once. -/
inductive Statement where
  | blank
  /-- A statement of its own, on one line or more; only the first counts as indented. -/
  | simple (lines : List Nat)
  | compound (head : Head) (brackets : Nat) (body : List Statement)

namespace Statement

/-- A line without anything to count. -/
def line : Statement := .simple [0]

/-- The greatest number of levels of indentation. -/
def indentLimit : Nat := 99

/-- The greatest number of loops inside each other. -/
def loopLimit : Nat := 20

/-- The greatest number of open brackets. -/
def bracketLimit : Nat := 200

/-- A place in a program where it exceeds a limit. -/
abbrev Excess := Limit × Nat

/-- Checks a line. -/
def checkLine (level brackets line : Nat) : Except Excess Unit :=
  if indentLimit < level then .error (.indentation, line)
  else if bracketLimit < brackets then .error (.brackets, line)
  else .ok ()

/-- Reads the lines of a statement; gives the line after them. -/
def readLines (level line : Nat) : List Nat → Except Excess Nat
  | [] => .ok line
  | brackets :: rest => do
    checkLine level brackets line
    readLines 0 (line + 1) rest

mutual

/-- Reads a statement at a level of indentation, from a line on; gives the line after it. -/
def read (level line : Nat) : Statement → Except Excess Nat
  | .blank => .ok (line + 1)
  | .simple lines => readLines level line lines
  | .compound _ brackets body => do
    checkLine level brackets line
    readAll (level + 1) (line + 1) body

/-- Reads statements one after another. -/
def readAll (level line : Nat) : List Statement → Except Excess Nat
  | [] => .ok line
  | statement :: rest => do readAll level (← read level line statement) rest

end

mutual

/-- Looks at the loops of a statement inside so many others, from a line on; gives the line after
it. The loops of a function are counted anew. -/
def enter (loops line : Nat) : Statement → Except Excess Nat
  | .blank => .ok (line + 1)
  | .simple lines => .ok (line + lines.length)
  | .compound .loop _ body =>
    if loopLimit ≤ loops then .error (.loops, line) else enterAll (loops + 1) (line + 1) body
  | .compound .function _ body => enterAll 0 (line + 1) body
  | .compound .condition _ body => enterAll loops (line + 1) body

/-- Looks at the loops of statements one after another. -/
def enterAll (loops line : Nat) : List Statement → Except Excess Nat
  | [] => .ok line
  | statement :: rest => do enterAll loops (← enter loops line statement) rest

end

/-- The first place where a program exceeds a limit. -/
def excess? (program : List Statement) : Option Excess :=
  match readAll 0 1 program, enterAll 0 1 program with
  | .error found, _ => some found
  | .ok _, .error found => some found
  | .ok _, .ok _ => none

end Statement

/-! ## 2. Expressions -/

mutual

/-- The names in an expression. -/
def Expression.names : Expression → List Text
  | .name word => [word]
  | .nothing | .truth _ | .text _ | .integer _ | .float _ | .absent => []
  | .tuple items | .list items | .concatenation items => namesAmong items
  | .table keys values => namesAmong keys ++ namesAmong values
  | .part of _ | .negative of | .positive of | .no of => of.names
  | .item of key => of.names ++ key.names
  | .slice of start stop step => of.names ++ start.names ++ stop.names ++ step.names
  | .call of arguments _ | .filter of _ arguments _ | .test of _ arguments _ =>
    of.names ++ namesAmong arguments
  | .both left right | .either left right | .operation _ left right => left.names ++ right.names
  | .comparison first _ others => first.names ++ namesAmong others
  | .choice condition yes other => condition.names ++ yes.names ++ other.names

/-- The names in expressions. -/
def Expression.namesAmong : List Expression → List Text
  | [] => []
  | first :: rest => first.names ++ namesAmong rest

end

/-- A filter or a test, by its name. -/
structure Tool where
  isTest : Bool
  name : Text
  deriving DecidableEq, Repr

mutual

/-- The filters and tests in an expression. -/
def Expression.tools : Expression → List Tool
  | .name _ | .nothing | .truth _ | .text _ | .integer _ | .float _ | .absent => []
  | .tuple items | .list items | .concatenation items => toolsAmong items
  | .table keys values => toolsAmong keys ++ toolsAmong values
  | .part of _ | .negative of | .positive of | .no of => of.tools
  | .item of key => of.tools ++ key.tools
  | .slice of start stop step => of.tools ++ start.tools ++ stop.tools ++ step.tools
  | .call of arguments _ => of.tools ++ toolsAmong arguments
  | .filter of word arguments _ => ⟨false, word⟩ :: of.tools ++ toolsAmong arguments
  | .test of word arguments _ => ⟨true, word⟩ :: of.tools ++ toolsAmong arguments
  | .both left right | .either left right | .operation _ left right => left.tools ++ right.tools
  | .comparison first _ others => first.tools ++ toolsAmong others
  | .choice condition yes other => condition.tools ++ yes.tools ++ other.tools

/-- The filters and tests in expressions. -/
def Expression.toolsAmong : List Expression → List Tool
  | [] => []
  | first :: rest => first.tools ++ toolsAmong rest

end

mutual

/-- Whether the value of an expression can be told without carrying the template out. -/
def Expression.isConstant : Expression → Bool
  | .name _ | .absent | .call .. => false
  | .nothing | .truth _ | .text _ | .integer _ | .float _ => true
  | .tuple items | .list items | .concatenation items => areConstant items
  | .table keys values => areConstant keys && areConstant values
  | .part of _ | .negative of | .positive of | .no of => of.isConstant
  | .item of key => of.isConstant && key.isConstant
  | .slice of start stop step =>
    of.isConstant && start.isConstant && stop.isConstant && step.isConstant
  | .filter of _ arguments _ | .test of _ arguments _ => of.isConstant && areConstant arguments
  | .both left right | .either left right | .operation _ left right =>
    left.isConstant && right.isConstant
  | .comparison first _ others => first.isConstant && areConstant others
  | .choice condition yes other => condition.isConstant && yes.isConstant && other.isConstant

/-- Whether the values of expressions can be told without carrying the template out. -/
def Expression.areConstant : List Expression → Bool
  | [] => true
  | first :: rest => first.isConstant && areConstant rest

end

/-- The names that a program knows, the innermost first; a name may be sure to have a value. -/
abbrev Names := List (Text × Bool)

mutual

/-- The number of brackets that an expression opens at once. What can be told beforehand is
written as it is. -/
def Expression.brackets (names : Names) : Expression → Nat
  | .name word => if (names.lookup word).getD false then 0 else 2
  | .nothing | .truth _ | .text _ | .integer _ | .float _ | .absent => 0
  | .tuple items | .list items => 1 + bracketsAmong names items
  | .concatenation items =>
    if Expression.areConstant items then 0 else 2 + bracketsAmong names items
  | .table keys values => 1 + max (bracketsAmong names keys) (bracketsAmong names values)
  | .part of _ | .negative of | .positive of | .no of =>
    if of.isConstant then 0 else 1 + of.brackets names
  | .item of key =>
    if of.isConstant && key.isConstant then 0
    else 1 + max (of.brackets names) (key.brackets names)
  | .slice of start stop step =>
    max (of.brackets names)
      (1 + max (start.brackets names) (max (stop.brackets names) (step.brackets names)))
  | .call of arguments _ => 1 + max (of.brackets names) (bracketsAmong names arguments)
  | .filter of _ arguments _ | .test of _ arguments _ =>
    if of.isConstant && Expression.areConstant arguments then 0
    else 1 + max (of.brackets names) (bracketsAmong names arguments)
  | .both left right | .either left right | .operation _ left right =>
    if left.isConstant && right.isConstant then 0
    else 1 + max (left.brackets names) (right.brackets names)
  | .comparison first _ others =>
    if first.isConstant && Expression.areConstant others then 0
    else 1 + max (first.brackets names) (bracketsAmong names others)
  | .choice condition yes other =>
    1 + max (condition.brackets names) (max (yes.brackets names) (other.brackets names))

/-- The greatest number of brackets that one of some expressions opens at once. -/
def Expression.bracketsAmong (names : Names) : List Expression → Nat
  | [] => 0
  | first :: rest => max (first.brackets names) (bracketsAmong names rest)

end

/-! ## 3. Names of nodes -/

/-- The word for the loop around. -/
def loopWord : Text := "loop"

/-- The word for the template itself. -/
def selfWord : Text := "self"

/-- The word for the body that a block inherits. -/
def superWord : Text := "super"

mutual

/-- The names that a node uses outside of the loops and blocks in it. -/
def Node.names : Node → List Text
  | .text .. | .block .. | .extendAgain => []
  | .print value _ => value.names
  | .each _ through _ _ _ _ => through.names
  | .choose condition yes no _ => condition.names ++ namesOf yes ++ namesOf no
  | .extend parent _ => parent.names

/-- The names that nodes use outside of the loops and blocks in them. -/
def Node.namesOf : List Node → List Text
  | [] => []
  | node :: rest => node.names ++ namesOf rest

end

mutual

/-- The names that a node uses outside of the blocks in it. -/
def Node.allNames : Node → List Text
  | .each _ through test body otherwise _ =>
    through.names ++ (test.map Expression.names).getD [] ++ allNamesOf body ++
      allNamesOf otherwise
  | .choose condition yes no _ => condition.names ++ allNamesOf yes ++ allNamesOf no
  | node => node.names

/-- The names that nodes use outside of the blocks in them. -/
def Node.allNamesOf : List Node → List Text
  | [] => []
  | node :: rest => node.allNames ++ allNamesOf rest

end

mutual

/-- The filters and tests that a node uses outside of the blocks in it. -/
def Node.tools : Node → List Tool
  | .text .. | .block .. | .extendAgain => []
  | .print value _ => value.tools
  | .each _ through test body otherwise _ =>
    through.tools ++ (test.map Expression.tools).getD [] ++ toolsOf body ++ toolsOf otherwise
  | .choose condition yes no _ => condition.tools ++ toolsOf yes ++ toolsOf no
  | .extend parent _ => parent.tools

/-- The filters and tests that nodes use outside of the blocks in them. -/
def Node.toolsOf : List Node → List Tool
  | [] => []
  | node :: rest => node.tools ++ toolsOf rest

end

mutual

/-- Whether a block in a node sees the names around it. -/
def Node.opensBlock : Node → Bool
  | .block _ use body _ => use.seesAround || opensAnyBlock body
  | .each _ _ _ body otherwise _ => opensAnyBlock body || opensAnyBlock otherwise
  | .choose _ yes no _ => opensAnyBlock yes || opensAnyBlock no
  | .text .. | .print .. | .extend .. | .extendAgain => false

/-- Whether a block in nodes sees the names around it. -/
def Node.opensAnyBlock : List Node → Bool
  | [] => false
  | node :: rest => node.opensBlock || opensAnyBlock rest

end

/-! ## 4. Pieces of a listing -/

/-- What a node adds to a listing. Adjacent outputs are written together. -/
inductive Piece where
  | output (guarded constant : Bool) (brackets : Nat)
  | statements (statements : List Statement)

/-- The brackets of outputs, given by whether they are constant and by their brackets; constants
that follow each other are one. -/
def outputLines (afterConstant : Bool) : List (Bool × Nat) → List Nat
  | [] => []
  | (true, _) :: rest => (if afterConstant then [] else [0]) ++ outputLines true rest
  | (false, brackets) :: rest => (brackets + 1) :: outputLines false rest

/-- Outputs that are written together. Inside a loop that may be gone through again they are
gathered, in one statement. -/
def outputStatements (gathered guarded : Bool) (outputs : List (Bool × Nat)) : List Statement :=
  let lines := outputLines false outputs
  let around := if lines.length == 1 then 1 else 2
  let written : List Statement :=
    if gathered then [.simple ([around] ++ lines.map (around + ·) ++ [0])]
    else lines.map fun brackets => .simple [brackets]
  if outputs.isEmpty then []
  else if guarded then [.compound .condition 0 written]
  else written

/-- The statements of pieces, after outputs that are not written yet. -/
def Piece.assemble (gathered guarded : Bool) (outputs : List (Bool × Nat)) :
    List Piece → List Statement
  | [] => outputStatements gathered guarded outputs
  | .output isGuarded constant brackets :: rest =>
    assemble gathered isGuarded (outputs ++ [(constant, brackets)]) rest
  | .statements found :: rest =>
    outputStatements gathered guarded outputs ++ found ++ assemble gathered false [] rest

/-! ## 5. Listings of nodes -/

/-- Where in a program nodes are written. -/
structure Frame where
  place : Place
  names : Names
  /-- Outputs are gathered. -/
  gathered : Bool

namespace Frame

/-- The frame inside a function or loop with names that are sure to have values, and the other
names that are used there for the first time. -/
def inside (frame : Frame) (sure used : List Text) : Frame × List Text :=
  let names := sure.map (·, true) ++ frame.names
  let fresh := used.eraseDups.filter fun name => (names.lookup name).isNone
  ({ frame with names := fresh.map (·, false) ++ names }, fresh)

/-- The statements of pieces. -/
def assemble (frame : Frame) (pieces : List Piece) : List Statement :=
  Piece.assemble frame.gathered false [] pieces

/-- What prints something, unless a parent has been named for certain. -/
def shows (frame : Frame) (constant : Bool) (brackets : Nat) :
    StateM Parents (List Piece × Bool) := do
  if frame.place.guards && (← get).known then return ([], false)
  else return ([.output frame.place.guards constant brackets], false)

/-- Statements, after which a listing goes on. -/
def writes (statements : List Statement) : StateM Parents (List Piece × Bool) :=
  return ([.statements statements], false)

/-- The statements of a block at its place. -/
def writesBlock (frame : Frame) (use : BlockUse) : StateM Parents (List Piece × Bool) := do
  let ⟨known, count⟩ ← get
  if frame.place.top && known then return ([], false)
  else
    let required : List Statement :=
      if use.required then [.compound .condition 2 [.simple [1]]] else []
    let call : Statement :=
      if frame.gathered then .compound .loop 1 [.simple [1]] else .simple [2]
    let whole := required ++ [call]
    writes (if frame.place.top && 0 < count then [.compound .condition 0 whole] else whole)

/-- The statements that name a parent. After a second parent a listing ends. -/
def writesParent (frame : Frame) (parent : Expression) :
    StateM Parents (List Piece × Bool) := do
  let ⟨known, count⟩ ← get
  if known then return ([.statements [.simple [1]]], true)
  else
    set (⟨frame.place.root, count + 1⟩ : Parents)
    let again : List Statement :=
      if count == 0 then [] else [.compound .condition 0 [.simple [1]]]
    writes (again ++ [.simple [1 + parent.brackets frame.names],
      .compound .loop 1 [.simple [2]]])

end Frame

/-- Lines without anything to count. -/
def linesOf {α : Type} (items : List α) : List Statement := items.map fun _ => .line

/-- One line, if something holds. -/
def lineIf (holds : Bool) : List Statement := if holds then [.line] else []

/-- The function that tests the values of a loop. -/
def testFunction (frame : Frame) (target : Target) (test : Expression) : Statement :=
  let (inner, fresh) := frame.inside target.names test.names
  .compound .function 1 (linesOf fresh ++ [.compound .loop 1
    [.compound .condition (test.brackets inner.names) [.simple [1]]]])

/-- The statements of a loop that may be gone through again: a function of its own, and a call. -/
def againFunction (through : Nat) (statements : List Statement) : List Statement :=
  [.compound .function 1 ([.simple [1]] ++ statements ++ [.simple [1]]), .simple [1 + through]]

mutual

/-- What a node adds to a listing, and whether the listing ends with it. -/
def Node.listing (frame : Frame) : Node → StateM Parents (List Piece × Bool)
  | .text .. => frame.shows true 0
  | .print value _ => frame.shows value.isConstant (value.brackets frame.names)
  | .each target through test body otherwise recursive => do
    let extended := recursive || (allNamesOf body).contains loopWord ||
      opensAnyBlock body || opensAnyBlock otherwise
    let around := { frame with place := frame.place.inLoop, gathered := frame.gathered || recursive }
    let (inner, fresh) :=
      around.inside ((if extended then [loopWord] else []) ++ target.names) (namesOf body)
    let brackets := through.brackets frame.names + (if extended then 1 else 0) +
      (if test.isSome then 1 else 0)
    let statements := inner.assemble (← piecesOf inner body)
    let (last, new) := around.inside [] (namesOf otherwise)
    let others := last.assemble (← piecesOf last otherwise)
    let hasOther := !otherwise.isEmpty
    let loop : List Statement :=
      lineIf extended ++ lineIf hasOther ++
        [.compound .loop brackets (linesOf fresh ++ [.line, .line] ++ statements ++
          lineIf hasOther)] ++
        lineIf (!recursive || hasOther) ++
        (if hasOther then
          [.compound .condition 0 (linesOf new ++ [.line] ++ others ++ lineIf (!new.isEmpty))]
        else [])
    let filters := (test.map (testFunction frame target)).toList
    Frame.writes (filters ++
      if recursive then againFunction (through.brackets frame.names) loop else loop)
  | .choose condition yes no chained => do
    let under := { frame with place := frame.place.underCondition }
    let statements := under.assemble (← piecesOf under yes)
    let others := under.assemble (← piecesOf under no)
    let first : Statement :=
      .compound .condition (condition.brackets frame.names) (.line :: statements)
    Frame.writes (first ::
      if chained then others
      else if no.isEmpty then []
      else [.compound .condition 0 (.line :: others)])
  | .block _ use _ _ => frame.writesBlock use
  | .extend parent _ => frame.writesParent parent
  | .extendAgain => return ([], true)

/-- What nodes add to a listing, until it ends. -/
def Node.piecesOf (frame : Frame) : List Node → StateM Parents (List Piece)
  | [] => return []
  | node :: rest => do
    let (pieces, ends) ← node.listing frame
    if ends then return pieces else return pieces ++ (← piecesOf frame rest)

end

/-- The statements of nodes. -/
def Node.listingOf (frame : Frame) (nodes : List Node) : StateM Parents (List Statement) := do
  return frame.assemble (← piecesOf frame nodes)

/-! ## 6. Programs -/

/-- The lines that every function starts with. -/
def openingLines : List Statement := [.line, .line, .line, .line, .line]

/-- The statements that make a filter or test ready: it is looked up, and what stands for it if
there is none is a function that fails. -/
def toolStatements : List Statement :=
  [.compound .condition 0 [.simple [1]],
   .compound .condition 0 [.line, .compound .function 1 [.simple [1]]]]

/-- The lines that make the tools of nodes ready. -/
def toolLines (nodes : List Node) : List Statement :=
  (Node.toolsOf nodes).eraseDups.flatMap fun _ => toolStatements

/-- The function of the page. -/
def pageFunction (nodes : List Node) : StateM Parents Statement := do
  let extending := Node.extendsAny nodes
  let ownName := (Node.allNamesOf nodes).contains selfWord
  let top : Frame := ⟨⟨extending, true, true, false⟩, [], false⟩
  let (frame, fresh) := top.inside (if ownName then [selfWord] else []) (Node.namesOf nodes)
  let body ← Node.listingOf frame nodes
  let parents ← get
  let parent : List Statement :=
    if !extending then []
    else if parents.known then [.simple [1]]
    else [.compound .condition 0 [.simple [1]]]
  return .compound .function 1 (openingLines ++ lineIf ownName ++ lineIf extending ++
    linesOf fresh ++ toolLines nodes ++ [.line] ++ body ++ parent)

/-- The function of a block. -/
def blockFunction (nodes : List Node) : StateM Parents Statement := do
  let used := Node.allNamesOf nodes
  let sure := [selfWord, superWord].filter used.contains
  let frame : Frame := ⟨.inBlock, [], false⟩
  let (inner, fresh) := frame.inside sure (Node.namesOf nodes)
  let body ← Node.listingOf inner nodes
  return .compound .function 1 (openingLines ++ linesOf sure ++ [.line] ++ linesOf fresh ++
    toolLines nodes ++ [.line] ++ body)

/-- The program of a template. -/
def program (nodes : List Node) : List Statement :=
  let functions : StateM Parents (List Statement) := do
    let page ← pageFunction nodes
    let blocks ← (Node.blocksOf nodes).mapM fun (_, body) => blockFunction body
    return [.line, .line] ++ (page :: blocks).flatMap fun function => [.blank, function]
  (functions.run ⟨false, 0⟩).1

/-- The first place where the program of a template exceeds a limit. -/
def excess? (nodes : List Node) : Option (Limit × Nat) := Statement.excess? (program nodes)

end CodeAtlas.Template
