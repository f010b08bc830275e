/-
  File:      CodeAtlas/Source/Reader.lean
  Subject:   From tokens to the outline of a source file.

  The reader looks for three kinds of words: `package`, `import`, and the words
  after which a type is named. It follows braces to know in which type a
  declaration stands, and leaves out what stands in literals. Two double-quoted
  literals in a row, the first of them empty, open or close a text block.

  * `Outline`: what has been read so far.
  * `Reader.body`: reads the body of a type, or of the file, and returns the
    tokens after it. A declaration in the body is read by a nested call.
  * `SourceFile.ofText`: the outline of a whole text. It exists for every text.
-/
import CodeAtlas.Language.Profile
import CodeAtlas.Source.File
import CodeAtlas.Source.Token

namespace CodeAtlas

/-- What has been read so far. -/
structure Outline where
  package : Text
  imports : List Import
  types : List Declaration
  /-- Whether the reader is inside a text block. -/
  inTextBlock : Bool
  /-- Whether the token before was an empty literal in double quotes. -/
  afterEmpty : Bool
  deriving DecidableEq, Repr

namespace Outline

/-- Adds an import unless it is there already. -/
def addImport (outline : Outline) (name : Text) : Outline :=
  if outline.imports.contains ⟨name⟩ then outline
  else { outline with imports := outline.imports ++ [⟨name⟩] }

/-- Adds a declaration. -/
def addType (outline : Outline) (declaration : Declaration) : Outline :=
  { outline with types := outline.types ++ [declaration] }

/-- Takes note of a token; the second result tells whether it is hidden, which a literal is,
and every token inside a text block. A double-quoted literal after an empty one opens or
closes a text block, and does not pair up with the literal after it. -/
def notice (outline : Outline) (lexeme : Lexeme) : Outline × Bool :=
  match lexeme with
  | .literal quote body =>
    if quote == '"' && outline.afterEmpty then
      ({ outline with inTextBlock := !outline.inTextBlock, afterEmpty := false }, true)
    else ({ outline with afterEmpty := quote == '"' && body.isEmpty }, true)
  | _ => ({ outline with afterEmpty := false }, outline.inTextBlock)

end Outline

namespace Reader

/-- Tokens that are left over, no more than `tokens`. -/
abbrev Rest (tokens : List Token) := { rest : List Token // rest.length ≤ tokens.length }

/-- A word at the front of the tokens, and the tokens after it. A word taken here is the token
before the next one, so it ends the memory of an empty literal. -/
def word? : (tokens : List Token) → Option (Token × Text × Rest tokens)
  | token@⟨.word name, _⟩ :: rest =>
    some (token, name, ⟨rest, by simp⟩)
  | _ => none

/-- The imported name that follows the word `import`, after an optional `static`. A name that
ends in a dot comes from `a.b.*`. -/
def importName? (tokens : List Token) : Option Text × Rest tokens :=
  match word? tokens with
  | none => (none, ⟨tokens, Nat.le_refl _⟩)
  | some (_, first, ⟨rest, h⟩) =>
    if first == "static".toList then
      match word? rest with
      | none => (none, ⟨rest, h⟩)
      | some (_, second, ⟨more, h'⟩) => (some second, ⟨more, Nat.le_trans h' h⟩)
    else (some first, ⟨rest, h⟩)

/-- The name of an import as it is kept. -/
def importedName (name : Text) : Text :=
  if name.getLast? == some '.' then name ++ ['*'] else name

/-- Reads a body until its closing brace, or until the tokens end if it is not `nested`.
`scope` holds the names of the enclosing types, each with a dot after it, and `depth` counts
the open braces. -/
def body (language : Language) (page : Text) (scope : Text) (nested : Bool) (depth : Nat)
    (outline : Outline) : (tokens : List Token) → Outline × Rest tokens
  | [] => (outline, ⟨[], Nat.le_refl _⟩)
  | token :: rest =>
    let seen := outline.notice token.lexeme
    let go (depth : Nat) (outline : Outline) (later : Rest rest) : Outline × Rest (token :: rest) :=
      let (final, ⟨left, h⟩) := body language page scope nested depth outline later.val
      (final, ⟨left, Nat.le_trans h (Nat.le_trans later.property (Nat.le_succ _))⟩)
    let here : Rest rest := ⟨rest, Nat.le_refl _⟩
    if seen.2 then go depth seen.1 here
    else
      match token.lexeme with
      | .sign '{' => go (depth + 1) seen.1 here
      | .sign '}' =>
        if nested && depth ≤ 1 then (seen.1, ⟨rest, Nat.le_succ _⟩)
        else go (depth - 1) seen.1 here
      | .word keyword =>
        if keyword == "package".toList then
          match word? rest with
          | some (_, name, later) => go depth { seen.1 with package := name } later
          | none => go depth seen.1 here
        else if keyword == "import".toList then
          match importName? rest with
          | (some name, later) => go depth (seen.1.addImport (importedName name)) later
          | (none, later) => go depth seen.1 later
        else if language.typeKeywords.contains keyword then
          match word? rest with
          | some (named, name, later) =>
            let declared := seen.1.addType ⟨scope ++ name, page, named.line⟩
            let (inner, ⟨left, h⟩) :=
              body language page (scope ++ name ++ ['.']) true 0 declared later.val
            go depth inner ⟨left, Nat.le_trans h later.property⟩
          | none => go depth seen.1 here
        else go depth seen.1 here
      | _ => go depth seen.1 here
termination_by tokens => tokens.length
decreasing_by
  all_goals
    simp only [List.length_cons]
    exact Nat.lt_succ_of_le later.property

/-- The outline of a list of tokens. -/
def outline (language : Language) (page : Text) (tokens : List Token) : Outline :=
  (body language page [] false 0 ⟨[], language.implicitImports.map (⟨·⟩), [], false, false⟩
    tokens).1

end Reader

/-- The outline of a text that stands in the file at `path`. -/
def SourceFile.ofText (text : Text) (path : Path) (language : Language)
    (encoding : Option Text) : SourceFile :=
  let page := language.pageName path.name
  let outline := Reader.outline language page (Token.scan text)
  { path, package := outline.package, imports := outline.imports, types := outline.types,
    encoding, page }

end CodeAtlas
