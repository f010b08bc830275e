/-
  File:      CodeAtlas/Source/Token.lean
  Subject:   The tokens of a source text.

  Blanks separate tokens and comments are skipped. Words may hold dots and
  hyphens after their first character, so that `java.util.List` is one word. A
  `*` that does not belong to a comment hides the rest of its line. A quoted
  literal ends at its quote or at the end of its line.

  * `Lexeme`, `Token`: what stands in the text, and on which line.
  * `Mode`: what is being read. The scanner is a machine that takes one
    character at a time: `Mode.read` gives the lexemes that a character
    completes and the mode after it, `Mode.rest` those that the end completes.
  * `Token.scan`: the tokens of a text.
-/
import CodeAtlas.Text.Numeral

namespace CodeAtlas

/-- What a token is. -/
inductive Lexeme where
  | word (name : Text)
  | number
  /-- A literal between quotes, with its escapes resolved. -/
  | literal (quote : Char) (body : Text)
  /-- Any other character, which stands for itself. -/
  | sign (char : Char)
  deriving DecidableEq, Repr

/-- A lexeme and the line it stands on. -/
structure Token where
  lexeme : Lexeme
  line : Nat
  deriving DecidableEq, Repr

/-! ## 1. Character classes -/

/-- A word starts with an ASCII letter, an underscore, a dollar sign or any character from
U+0080 on. -/
def isWordStart (c : Char) : Bool := c.isAlpha || c == '_' || c == '$' || 128 ≤ c.toNat

/-- After its start a word may also hold digits, dots and hyphens. -/
def isWordPart (c : Char) : Bool := isWordStart c || c.isDigit || c == '.' || c == '-'

/-- A number goes on through digits of any script and dots. -/
def isNumberPart (c : Char) : Bool := Text.isDigit c || c == '.'

/-! ## 2. The machine -/

/-- What is being read. -/
inductive Mode where
  | between
  | word (name : Text)
  | number
  /-- A dot; a digit after it makes it a number. -/
  | dot
  /-- A slash; another slash or a star after it makes it a comment. -/
  | slash
  | literal (quote : Char) (body : Text)
  /-- The backslash of an escape in a literal. -/
  | escape (quote : Char) (body : Text)
  | lineComment
  /-- A block comment; `star` tells whether its last character can begin the end. -/
  | blockComment (star : Bool)
  deriving DecidableEq, Repr

/-- The lexemes that the end of the line, or of the text, completes. -/
def Mode.rest : Mode → List Lexeme
  | .word name => [.word name]
  | .number => [.number]
  | .dot => [.sign '.']
  | .slash => [.sign '/']
  | .literal quote body => [.literal quote body]
  | .escape quote body => [.literal quote (body ++ ['\\'])]
  | .between | .lineComment | .blockComment _ => []

/-- Reads the first character of something new. -/
def Mode.start (c : Char) : List Lexeme × Mode :=
  if c ≤ ' ' then ([], .between)
  else if c == '/' then ([], .slash)
  else if c == '*' then ([], .lineComment)
  else if isWordStart c then ([], .word [c])
  else if c.isDigit then ([], .number)
  else if c == '.' then ([], .dot)
  else if c == '"' || c == '\'' then ([], .literal c [])
  else ([.sign c], .between)

/-- Completes what was being read and reads `c` as the start of something new. -/
def Mode.restart (mode : Mode) (c : Char) : List Lexeme × Mode :=
  (mode.rest ++ (Mode.start c).1, (Mode.start c).2)

/-- Reads one character: the lexemes it completes and the mode after it. -/
def Mode.read (mode : Mode) (c : Char) : List Lexeme × Mode :=
  match mode with
  | .between => Mode.start c
  | .word name => if isWordPart c then ([], .word (name ++ [c])) else mode.restart c
  | .number => if isNumberPart c then ([], .number) else mode.restart c
  | .dot => if Text.isDigit c then ([], .number) else mode.restart c
  | .slash =>
    if c == '/' then ([], .lineComment)
    else if c == '*' then ([], .blockComment false)
    else mode.restart c
  | .literal quote body =>
    if c == quote then (mode.rest, .between)
    else if c == '\n' then (mode.rest, .between)
    else if c == '\\' then ([], .escape quote body)
    else ([], .literal quote (body ++ [c]))
  | .escape quote body =>
    if c == '\n' then (mode.rest, .between) else ([], .literal quote (body ++ [c]))
  | .lineComment => if c == '\n' then ([], .between) else ([], .lineComment)
  | .blockComment star =>
    if star && c == '/' then ([], .between) else ([], .blockComment (c == '*'))

/-- The line after a character on `line`. -/
def lineAfter (line : Nat) (c : Char) : Nat := if c == '\n' then line + 1 else line

/-- The tokens of a text that is read in `mode` from `line` on. -/
def Token.scanFrom : Mode → Nat → Text → List Token
  | mode, line, [] => mode.rest.map (⟨·, line⟩)
  | mode, line, c :: text =>
    (mode.read c).1.map (⟨·, line⟩) ++ scanFrom (mode.read c).2 (lineAfter line c) text

/-- The tokens of a text. -/
def Token.scan (text : Text) : List Token := Token.scanFrom .between 1 text

end CodeAtlas
