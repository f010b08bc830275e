/-
  File:      CodeAtlas/Template/Lexeme.lean
  Subject:   The words inside the tags of a template.

  * `Lexeme`: names, strings, numbers and signs.
  * `Lexeme.next?`: the first word of a text. A number with a point or an exponent
    goes before an integer, and a sign of two characters before one of one.
  * `unescape?`: the text that a string between quotes stands for.
-/
import CodeAtlas.Decimal.Integer
import CodeAtlas.Text.Identifier
import CodeAtlas.Text.Quoted

namespace CodeAtlas.Template

/-- A word inside a tag. -/
inductive Lexeme where
  | name (text : Text)
  | string (text : Text)
  | integer (value : Nat)
  /-- A number with a point or an exponent, as it is written. -/
  | float (text : Text)
  | sign (text : Text)
  deriving DecidableEq, Repr

/-! ## 1. Strings -/

/-- The string up to its quote, and what follows. A backslash hides the character after it. -/
def stringRest (quote : Char) : Text → Option (Text × Text)
  | [] => none
  | '\\' :: c :: rest =>
    (stringRest quote rest).map fun (body, after) => ('\\' :: c :: body, after)
  | c :: rest =>
    if c == quote then some ([], rest)
    else (stringRest quote rest).map fun (body, after) => (c :: body, after)

/-- The characters with a letter of their own after a backslash. -/
def letterEscapes : List (Char × Char) :=
  [('\\', '\\'), ('\'', '\''), ('"', '"'), ('a', '\x07'), ('b', '\x08'), ('f', '\x0c'),
   ('n', '\n'), ('r', '\r'), ('t', '\t'), ('v', '\x0b')]

/-- How many hexadecimal digits follow a backslash with a letter. -/
def hexEscapes : List (Char × Nat) := [('x', 2), ('u', 4), ('U', 8)]

/-- The text of a number; none beyond the last character. -/
def numbered? (code : Nat) : Option Text :=
  if 0x10FFFF < code then none else some (Text.ofCode code)

/-- What an escape after its backslash stands for, and the rest. -/
def escape? : Text → Option (Text × Text)
  | [] => none
  | '\n' :: rest => some ([], rest)
  | c :: rest =>
    match letterEscapes.lookup c, hexEscapes.lookup c with
    | some plain, _ => some ([plain], rest)
    | none, some width =>
      let digits := rest.take width
      if digits.length == width && digits.all (Decimal.isDigitOf 16) then do
        let code ← Decimal.natural? 16 digits
        some (← numbered? code, rest.drop width)
      else none
    | none, none =>
      if c == 'N' then none
      else
        let digits := ((c :: rest).take 3).takeWhile (Decimal.isDigitOf 8)
        match Decimal.natural? 8 digits with
        | some code => some (Text.ofCode code, (c :: rest).drop digits.length)
        | none => some (['\\', c], rest)

/-- Replaces escapes. `fuel` bounds their number. -/
def unescapeFrom : (fuel : Nat) → Text → Option Text
  | 0, _ => some []
  | _ + 1, [] => some []
  | fuel + 1, '\\' :: rest => do
    let (plain, after) ← escape? rest
    (unescapeFrom fuel after).map (plain ++ ·)
  | fuel + 1, c :: rest => (unescapeFrom fuel rest).map (c :: ·)

/-- The text of a string. Characters beyond ASCII count as escapes, also after a backslash. -/
def unescape? (body : Text) : Option Text :=
  let plain := Text.ascii body
  unescapeFrom (plain.length + 1) plain

/-! ## 2. Numbers -/

/-- Digits with single underscores between them, and the rest. The first may follow an
underscore if `joined`. -/
def digitRun (isDigit : Char → Bool) (joined : Bool) : Text → Text × Text
  | '_' :: d :: rest =>
    if joined && isDigit d then
      let (digits, after) := digitRun isDigit true rest
      (d :: digits, after)
    else ([], '_' :: d :: rest)
  | d :: rest =>
    if isDigit d then
      let (digits, after) := digitRun isDigit true rest
      (d :: digits, after)
    else ([], d :: rest)
  | [] => ([], [])

/-- A point with digits after it, and the rest. -/
def fraction? : Text → Option (Text × Text)
  | '.' :: rest =>
    match digitRun Text.isDecimal false rest with
    | ([], _) => none
    | (digits, after) => some ('.' :: digits, after)
  | _ => none

/-- An exponent with its mark, and the rest. -/
def exponentPart? : Text → Option (Text × Text)
  | mark :: rest =>
    if mark == 'e' || mark == 'E' then
      let (sign, body) : Text × Text :=
        match rest with
        | '+' :: body => (['+'], body)
        | '-' :: body => (['-'], body)
        | body => ([], body)
      match digitRun Text.isDecimal false body with
      | ([], _) => none
      | (digits, after) => some ('e' :: (sign ++ digits), after)
    else none
  | [] => none

/-- A number with a point or an exponent, and the rest. -/
def float? (text : Text) : Option (Text × Text) :=
  match digitRun Text.isDecimal false text with
  | ([], _) => none
  | (whole, rest) =>
    match fraction? rest with
    | some (fraction, after) =>
      match exponentPart? after with
      | some (exponent, after) => some (whole ++ fraction ++ exponent, after)
      | none => some (whole ++ fraction, after)
    | none => (exponentPart? rest).map fun (exponent, after) => (whole ++ exponent, after)

/-- The base that a letter after a zero marks. -/
def baseOf? (c : Char) : Option Nat :=
  if c == 'b' || c == 'B' then some 2
  else if c == 'o' || c == 'O' then some 8
  else if c == 'x' || c == 'X' then some 16
  else none

/-- An integer, and the rest. A zero is followed by a mark with digits or by zeros only. -/
def integer? : Text → Option (Nat × Text)
  | '0' :: rest =>
    let marked := rest.head?.bind fun c => do
      let base ← baseOf? c
      let (digits, after) := digitRun (Decimal.isDigitOf base) true rest.tail
      return (← Decimal.natural? base digits, after)
    some (marked.getD (0, (digitRun (· == '0') true rest).2))
  | d :: rest =>
    if d.isDigit then
      let (digits, after) := digitRun Text.isDecimal true rest
      (Decimal.natural? 10 (d :: digits)).map (·, after)
    else none
  | [] => none

/-! ## 3. Words -/

/-- The signs of two characters. -/
def longSigns : List Text :=
  ["//".toList, "**".toList, "==".toList, "!=".toList, ">=".toList, "<=".toList]

/-- The signs of one character. -/
def shortSigns : Text := "+-/*%~[]()\x7b\x7d><=.:|,;"

/-- A sign, and the rest. -/
def sign? (text : Text) : Option (Text × Text) :=
  if longSigns.contains (text.take 2) then some (text.take 2, text.drop 2)
  else
    match text with
    | c :: rest => if shortSigns.contains c then some ([c], rest) else none
    | [] => none

/-- The first word of a text that does not start with a blank, and the rest. No number with a
point starts after a point. -/
def Lexeme.next? (afterPoint : Bool) (text : Text) : Option (Lexeme × Text) :=
  match if afterPoint then none else float? text, integer? text, text with
  | some (number, rest), _, _ => some (.float number, rest)
  | none, some (value, rest), _ => some (.integer value, rest)
  | none, none, c :: rest =>
    if Text.isIdentifierPart c then
      let name := text.takeWhile Text.isIdentifierPart
      if Text.isIdentifier name then some (.name name, text.drop name.length) else none
    else if c == '"' || c == '\'' then do
      let (body, after) ← stringRest c rest
      return (.string (← unescape? body), after)
    else (sign? text).map fun (mark, after) => (.sign mark, after)
  | none, none, [] => none

end CodeAtlas.Template
