/-
  File:      CodeAtlas/Yaml/Cursor.lean
  Subject:   A place in a configuration text, and the characters that end things there.

  Lines end in a line feed, a next line mark, a line separator or a paragraph
  separator; the first two count as a line feed. The text holds no carriage
  returns.

  * `Cursor`: what is left of the text, and where it starts.
  * `Cursor.skip`, `Cursor.skipWhile`: moving on.
  * `Cursor.lineBreak`: reads one line break.
-/
import CodeAtlas.Text.Basic

namespace CodeAtlas.Yaml

/-- What is left of a text, and where it starts. -/
structure Cursor where
  text : Text
  index : Nat
  line : Nat
  column : Nat

/-- The characters that end a line. -/
def isBreak (c : Char) : Bool :=
  c == '\n' || c == '\x85' || c == '\u2028' || c == '\u2029'

/-- The end of the text, or a character that ends a line. -/
def endsLine : Option Char → Bool
  | none => true
  | some c => isBreak c

/-- The end of the text or of a line, or a space. -/
def endsPart (c : Option Char) : Bool := endsLine c || c == some ' '

/-- The end of the text or of a line, a space or a tab. -/
def endsWord (c : Option Char) : Bool := endsPart c || c == some '\t'

/-- Letters, digits, hyphens and underscores. -/
def isPlainName (c : Char) : Bool := c.isAlphanum || c == '-' || c == '_'

namespace Cursor

/-- The start of a text. -/
def ofText (text : Text) : Cursor := ⟨text, 0, 0, 0⟩

/-- The next character. -/
def peek (cursor : Cursor) : Option Char := cursor.text.head?

/-- The character `n` places on. -/
def peekAt (cursor : Cursor) (n : Nat) : Option Char := (cursor.text.drop n).head?

/-- Moves one character on. A byte order mark takes up no column. -/
def step (cursor : Cursor) : Cursor :=
  match cursor.text with
  | [] => cursor
  | c :: rest =>
    if isBreak c then ⟨rest, cursor.index + 1, cursor.line + 1, 0⟩
    else ⟨rest, cursor.index + 1, cursor.line,
      if c == '\uFEFF' then cursor.column else cursor.column + 1⟩

/-- Moves `n` characters on. -/
def skip : Nat → Cursor → Cursor
  | 0, cursor => cursor
  | n + 1, cursor => skip n cursor.step

/-- Moves on while characters satisfy `p`. -/
def skipWhile (p : Char → Bool) (cursor : Cursor) : Cursor :=
  cursor.skip (cursor.text.takeWhile p).length

/-- Whether the rest of the text starts with `start`. -/
def startsWith (cursor : Cursor) (start : Text) : Bool := start.isPrefixOf cursor.text

/-- Reads one line break, if there is one. -/
def lineBreak (cursor : Cursor) : Text × Cursor :=
  match cursor.peek with
  | some c =>
    if c == '\n' || c == '\x85' then (['\n'], cursor.step)
    else if isBreak c then ([c], cursor.step)
    else ([], cursor)
  | none => ([], cursor)

/-- Whether a document marker stands here: three dashes or dots and the end of a word. -/
def atDocumentMarker (cursor : Cursor) : Bool :=
  (cursor.startsWith "---" || cursor.startsWith "...") && endsWord (cursor.peekAt 3)

/-- Moves over spaces and a comment to the end of the line, which must follow. -/
def restOfLine (cursor : Cursor) : Except Text Cursor :=
  let blank := cursor.skipWhile (· == ' ')
  let ended :=
    if blank.peek == some '#' then blank.skipWhile (!isBreak ·) else blank
  if endsLine ended.peek then .ok ended.lineBreak.2 else .error "a comment or a line break is missing"

end Cursor

end CodeAtlas.Yaml
