/-
  File:      CodeAtlas/Markup/Line.lean
  Subject:   A source line as HTML.

  A line is escaped, cut into code and comments, and every piece is marked up:
  comments and literals with their addresses linked, the rest with keywords
  emphasised and names linked.

  * `Linker.showPlain`, `Linker.showCode`, `showComment`: the pieces.
  * `Linker.showStatement`: package and import statements, whose names link to
    pages even where a simple name would not.
  * `Linker.highlight`: a whole line, with the anchors placed and the state after it.
-/
import CodeAtlas.Markup.Comment
import CodeAtlas.Markup.Statement
import CodeAtlas.Markup.TypeLink

namespace CodeAtlas.Markup

/-- The style of a comment. -/
def CommentState.style : CommentState → Text
  | .code | .block => "jxr_comment"
  | .doc => "jxr_javadoccomment"

/-- A comment. -/
def showComment (kind : CommentState) (text : Text) : Text :=
  if text.isEmpty then []
  else "<em class=\"" ++ kind.style ++ "\">" ++ linkUris text ++ "</em>"

/-- A literal with its quotes; the closing one may be missing. -/
def showLiteral (body : Text) (closed : Bool) : Text :=
  "<span class=\"jxr_string\">\"" ++ linkUris body ++ (if closed then ['"'] else []) ++ "</span>"

namespace Linker

/-- Code without literals. -/
def showPlain (linker : Linker) (line : Nat) (placed : Placed) (text : Text) : Text × Placed :=
  if text.isEmpty then ([], placed)
  else linker.linkTypes line placed (linkUris (highlightKeywords linker.reservedWords text))

/-- Pieces of code that were split at double quotes: every other one is a literal, and only a
literal that another piece follows is closed. -/
def showPieces (linker : Linker) (line : Nat) : (literal : Bool) → Placed → List Text → Text × Placed
  | _, placed, [] => ([], placed)
  | true, placed, piece :: rest =>
    let (shown, final) := linker.showPieces line false placed rest
    (showLiteral piece (!rest.isEmpty) ++ shown, final)
  | false, placed, piece :: rest =>
    let (plain, after) := linker.showPlain line placed piece
    let (shown, final) := linker.showPieces line true after rest
    (plain ++ shown, final)

/-- Code with literals. -/
def showLiterals (linker : Linker) (line : Nat) (placed : Placed) (text : Text) : Text × Placed :=
  linker.showPieces line false placed (text.splitOn '"')

/-- The name of a package, linked if the package is known. -/
def showPackage (linker : Linker) (package : Text) : Text :=
  if (linker.table.package? package).isSome then nameLink (linker.packageHref package) package
  else package

/-- The name of an imported type: its package and, after a dot, the type. -/
def showImport (linker : Linker) (name : Text) : Text :=
  let spec : Import := ⟨name⟩
  let simple := spec.className?.getD []
  if spec.package.isEmpty then simple
  else
    let shown :=
      match linker.target? spec.package simple with
      | some target => nameLink (linker.typeHref target) simple
      | none => simple
    linker.showPackage spec.package ++ "." ++ shown

/-- The name in a package or import statement. The package of the file always links. -/
def showStatementName (linker : Linker) (statement : Statement) : Text :=
  match statement.kind with
  | .packageLine => nameLink (linker.packageHref statement.name) statement.name
  | .importLine =>
    if statement.wildcard then linker.showPackage statement.name
    else linker.showImport statement.name

/-- A package or import statement. -/
def showStatement (linker : Linker) (line : Nat) (placed : Placed) (statement : Statement) :
    Text × Placed :=
  let (tail, final) := linker.showLiterals line placed statement.tail
  (statement.indent ++ highlightKeywords linker.reservedWords statement.kind.keyword ++
    statement.gap ++ highlightKeywords linker.reservedWords statement.static ++
    linker.showStatementName statement ++ (if statement.wildcard then ['.', '*'] else []) ++ tail, final)

/-- A piece of code. -/
def showCode (linker : Linker) (line : Nat) (placed : Placed) (text : Text) : Text × Placed :=
  match Statement.ofText? text with
  | some statement => linker.showStatement line placed statement
  | none => linker.showLiterals line placed text

/-- The segments of a line one after the other. -/
def showSegments (linker : Linker) (line : Nat) : Placed → List Segment → Text × Placed
  | placed, [] => ([], placed)
  | placed, .comment kind text :: rest =>
    let (shown, final) := linker.showSegments line placed rest
    (showComment kind text ++ shown, final)
  | placed, .code text :: rest =>
    let (code, after) := linker.showCode line placed text
    let (shown, final) := linker.showSegments line after rest
    (code ++ shown, final)

/-- A source line, given its number, as HTML, with the anchors placed and the state after it. -/
def highlight (linker : Linker) (line : Nat) (placed : Placed) (state : CommentState)
    (text : Text) : Text × Placed × CommentState :=
  let (pieces, after) := segments state (escapeLine text)
  let (shown, final) := linker.showSegments line placed pieces
  (shown, final, after)

end Linker

end CodeAtlas.Markup
