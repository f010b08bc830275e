/-
  File:      CodeAtlas/Template/Part.lean
  Subject:   The parts of a template text: plain text, printed values and tags.

  A value is printed between double braces, a tag stands between a brace with a
  percent sign, and a comment between a brace with a hash. Around tags and
  comments, but not around printed values, blanks that only indent the line are
  dropped, and so is one line feed right after. A minus sign inside a delimiter
  drops all blanks on its side, and a plus sign keeps them. Between the tags `raw`
  and `endraw` everything is plain text.

  * `Part.ofText`: the parts of a text. What ends right after an opening is as
    good as ended; a tag that is not closed otherwise is a fault.
-/
import CodeAtlas.Template.Lexeme
import CodeAtlas.Text.Blank

namespace CodeAtlas.Template

/-- A part of a template. -/
inductive Part where
  | plain (text : Text)
  | value (lexemes : List Lexeme)
  | tag (lexemes : List Lexeme)
  deriving DecidableEq, Repr

/-- The three kinds of delimiters. -/
inductive Delimiter where
  | value
  | tag
  | comment
  deriving DecidableEq, Repr

/-- The delimiter that the second character of an opening spells. -/
def Delimiter.ofChar? (c : Char) : Option Delimiter :=
  if c == '\x7b' then some .value
  else if c == '%' then some .tag
  else if c == '#' then some .comment
  else none

/-- The closing delimiter. -/
def Delimiter.closing : Delimiter → Text
  | .value => ['\x7d', '\x7d']
  | .tag => ['%', '\x7d']
  | .comment => ['#', '\x7d']

namespace Part

/-! ## 1. Delimiters -/

/-- The text before the first opening delimiter, the delimiter, and the text after it. -/
def opening? : Text → Option (Text × Delimiter × Text)
  | [] => none
  | c :: rest =>
    match if c == '\x7b' then rest.head?.bind Delimiter.ofChar? else none with
    | some delimiter => some ([], delimiter, rest.tail)
    | none => (opening? rest).map fun (before, delimiter, after) => (c :: before, delimiter, after)

/-- A plus or a minus at the start of a text, and the rest. -/
def control? : Text → Option Char × Text
  | '-' :: rest => (some '-', rest)
  | '+' :: rest => (some '+', rest)
  | text => (none, text)

/-- Drops the blanks that indent a tag: those after the last line feed, if nothing else stands
there. Without a line feed the text must start a line. -/
def dropIndent (startsLine : Bool) (text : Text) : Text :=
  match Text.cutLast? '\n' text with
  | some (before, last) => if last.all Text.isBlank then before ++ ['\n'] else text
  | none => if startsLine && text.all Text.isBlank then [] else text

/-- The text before an opening, as its control and kind leave it. -/
def beforeOpening (startsLine : Bool) (delimiter : Delimiter) (control : Option Char)
    (text : Text) : Text :=
  if control == some '-' then Text.trimRight text
  else if control == some '+' || delimiter == .value then text
  else dropIndent startsLine text

/-- The text after a closing, as its control and kind leave it, and whether it starts a line. -/
def afterClosing (delimiter : Delimiter) (control : Option Char) (text : Text) : Text × Bool :=
  if control == some '-' then
    let (blanks, rest) := text.span Text.isBlank
    (rest, blanks.getLast? == some '\n')
  else if control == some '+' || delimiter == .value then (text, false)
  else
    match text with
    | '\n' :: rest => (rest, true)
    | _ => (text, false)

/-- A closing at the start of a text: its control, and the rest. A printed value takes no
plus. -/
def closing? (delimiter : Delimiter) (text : Text) : Option (Option Char × Text) :=
  if delimiter.closing.isPrefixOf text then some (none, text.drop 2)
  else
    match control? text with
    | (some control, rest) =>
      if delimiter.closing.isPrefixOf rest && (control == '-' || delimiter != .value) then
        some (some control, rest.drop 2)
      else none
    | _ => none

/-! ## 2. Inside the delimiters -/

/-- The brackets that are open after a sign, given by the brackets that close them; a bracket
that closes another one than the last opened has none. -/
def balance? (opened : Text) (sign : Text) : Option Text :=
  match sign with
  | ['('] => some (')' :: opened)
  | ['['] => some (']' :: opened)
  | ['\x7b'] => some ('\x7d' :: opened)
  | [c] =>
    if c == ')' || c == ']' || c == '\x7d' then
      match opened with
      | last :: rest => if last == c then some rest else none
      | [] => none
    else some opened
  | _ => some opened

/-- The words up to the closing, and the closing's control and what follows. As long as a bracket
is open there is no closing. Without a closing, and at a character that starts no word, there
is none. `fuel` bounds the number of steps. -/
def lexemes? (delimiter : Delimiter) :
    (fuel : Nat) → (opened : Text) → (afterPoint : Bool) → Text →
      Option (List Lexeme × Option Char × Text)
  | 0, _, _, _ => none
  | fuel + 1, opened, afterPoint, text =>
    match if opened.isEmpty then closing? delimiter text else none with
    | some (control, rest) => some ([], control, rest)
    | none =>
      if text.head?.any Text.isBlank then lexemes? delimiter fuel opened false text.tail
      else do
        let (word, after) ← Lexeme.next? afterPoint text
        let sign : Text :=
          match word with
          | .sign sign => sign
          | _ => []
        let (words, more) ← lexemes? delimiter fuel (← balance? opened sign) (sign == ['.']) after
        return (word :: words, more)

/-- The end of a comment: its control and what follows. -/
def commentEnd? : Text → Option (Option Char × Text)
  | [] => none
  | c :: rest =>
    match closing? .comment (c :: rest) with
    | some found => some found
    | none => commentEnd? rest

/-! ## 3. Raw text -/

/-- The text after a word, which blanks may surround. -/
def afterWord? (word text : Text) : Option Text :=
  let start := text.dropWhile Text.isBlank
  if word.isPrefixOf start then some ((start.drop word.length).dropWhile Text.isBlank) else none

/-- The text after the tag `raw`, of which the part after its opening and control is given. Only
a minus in its closing has an effect. -/
def rawStart? (inside : Text) : Option (Text × Bool) := do
  match ← closing? .tag (← afterWord? "raw" inside) with
  | (some '+', _) => none
  | (some control, after) => some (afterClosing .tag (some control) after)
  | (none, after) => some (after, false)

/-- The text before the tag `endraw`, the control of the tag's opening, and the text after the
tag with whether it starts a line. -/
def rawEnd? : Text → Option (Text × Option Char × Text × Bool)
  | [] => none
  | c :: rest =>
    let found := do
      let inside ← if ['\x7b', '%'].isPrefixOf (c :: rest) then some rest.tail else none
      let (control, body) := control? inside
      let (closing, after) ← closing? .tag (← afterWord? "endraw" body)
      some (control, afterClosing .tag closing after)
    match found with
    | some (control, after) => some ([], control, after)
    | none => (rawEnd? rest).map fun (before, more) => (c :: before, more)

/-! ## 4. Parts -/

/-- A text as a part, unless it is empty. -/
def ofPlain (text : Text) : List Part := if text.isEmpty then [] else [.plain text]

/-- What an opening begins: the parts, and the text after them with whether it starts a line. -/
def ofOpening (delimiter : Delimiter) (body : Text) : Except Text (List Part × Text × Bool) :=
  if delimiter == .comment then
    match commentEnd? body with
    | some (control, after) => .ok ([], afterClosing delimiter control after)
    | none => if body.isEmpty then .ok ([], [], false) else .error "a comment does not end"
  else
    match if delimiter == .tag then rawStart? body else none with
    | some (raw, starts) =>
      match rawEnd? raw with
      | some (before, control, after) =>
        .ok (ofPlain (beforeOpening starts .tag control before), after)
      | none => if raw.isEmpty then .ok ([], [], false) else .error "raw text does not end"
    | none =>
      match lexemes? delimiter (body.length + 1) [] false body with
      | some (words, control, after) =>
        .ok ([if delimiter == .value then .value words else .tag words],
          afterClosing delimiter control after)
      | none => .error "a tag does not end"

/-- The parts of a text; `startsLine` tells whether it starts a line. `fuel` bounds the number
of openings. -/
def ofTextFrom : (fuel : Nat) → (startsLine : Bool) → Text → Except Text (List Part)
  | 0, _, text => .ok (ofPlain text)
  | fuel + 1, startsLine, text =>
    match opening? text with
    | none => .ok (ofPlain text)
    | some (before, delimiter, inside) => do
      let (control, body) := control? inside
      let plain := ofPlain (beforeOpening startsLine delimiter control before)
      let (parts, rest, starts) ← ofOpening delimiter body
      return plain ++ parts ++ (← ofTextFrom fuel starts rest)

/-- The parts of a template text. -/
def ofText (text : Text) : Except Text (List Part) := ofTextFrom (text.length + 1) true text

end Part

end CodeAtlas.Template
