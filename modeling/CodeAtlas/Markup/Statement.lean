/-
  File:      CodeAtlas/Markup/Statement.lean
  Subject:   Package and import statements.

  * `Statement`: the parts of such a statement, which put together are its text.
  * `Statement.ofText?`: reads one that takes up a whole piece of code.
-/
import CodeAtlas.Markup.Keyword
import CodeAtlas.Text.Blank

namespace CodeAtlas.Markup

/-- What a statement does. -/
inductive StatementKind where
  | packageLine
  | importLine
  deriving DecidableEq, Repr

/-- The parts of a package or import statement in the order they are written. -/
structure Statement where
  indent : Text
  kind : StatementKind
  /-- The blanks after the keyword. -/
  gap : Text
  /-- The word `static` with the blanks after it, or nothing. -/
  static : Text
  name : Text
  /-- Whether `.*` follows the name. -/
  wildcard : Bool
  /-- The semicolon with the blanks before it and all that follows. -/
  tail : Text
  deriving DecidableEq, Repr

/-- The keyword of a statement. -/
def StatementKind.keyword : StatementKind → Text
  | .packageLine => "package"
  | .importLine => "import"

namespace Statement

/-- Name, wildcard and tail at the end of a statement. -/
def ending? (text : Text) : Option (Text × Bool × Text) :=
  match qualifiedName? text with
  | none => none
  | some name =>
    let rest := text.drop name.length
    let wildcard := ['.', '*'].isPrefixOf rest
    let tail := if wildcard then rest.drop 2 else rest
    if (tail.dropWhile Text.isBlank).head? == some ';' then some (name, wildcard, tail) else none

/-- The word `static` and the blanks after it, at the start of a text, and what follows. -/
def static? (text : Text) : Option (Text × Text) :=
  if "static".toList.isPrefixOf text then
    match (text.drop 6).span Text.isBlank with
    | ([], _) => none
    | (blanks, rest) => some ("static" ++ blanks, rest)
  else none

/-- Optional `static` and the ending. A name may itself be `static`, if nothing else fits. -/
def remainder? (text : Text) : Option (Text × Text × Bool × Text) :=
  let withStatic := (static? text).bind fun (static, rest) => (ending? rest).map (static, ·)
  withStatic <|> (ending? text).map (([] : Text), ·)

/-- The keyword at the start of a text, and what follows. -/
def keyword? (text : Text) : Option (StatementKind × Text) :=
  [StatementKind.packageLine, .importLine].findSome? fun kind =>
    if kind.keyword.isPrefixOf text then some (kind, text.drop kind.keyword.length) else none

/-- Reads a statement. -/
def ofText? (text : Text) : Option Statement :=
  let (indent, rest) := text.span Text.isBlank
  (keyword? rest).bind fun (kind, afterKeyword) =>
    match afterKeyword.span Text.isBlank with
    | ([], _) => none
    | (gap, afterGap) =>
      (remainder? afterGap).map fun (static, name, wildcard, tail) =>
        { indent, kind, gap, static, name, wildcard, tail }

end Statement

end CodeAtlas.Markup
