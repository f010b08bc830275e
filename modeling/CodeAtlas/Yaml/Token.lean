/-
  File:      CodeAtlas/Yaml/Token.lean
  Subject:   The tokens of a configuration text.

  Indentation becomes tokens of its own: a block collection starts and ends with a
  token. Whether a scalar is a key is known only when its colon is reached; until
  then the place in the token list is remembered (`PossibleKey`), and the tokens
  for key and mapping are put there afterwards.

  * `Token`: the tokens.
  * `Scanner`: the tokens so far, the place in the text, the open indentations
    and the possible keys, at most one for each level of brackets.
  * `Tokens.ofText`: the tokens of a text. A fault in the text ends them; the
    tokens before it can still be read, up to the first possible key.
-/
import CodeAtlas.Decimal.Integer
import CodeAtlas.Yaml.Scalar

namespace CodeAtlas.Yaml

/-- A token. -/
inductive Token where
  /-- The version of the format that the text asks for. -/
  | version (major : Nat)
  /-- A short form for tags. -/
  | shorthand (handle start : Text)
  /-- Any other directive, which has no effect. -/
  | directive
  | documentStart
  | documentEnd
  | streamEnd
  | blockSequenceStart
  | blockMappingStart
  | blockEnd
  | flowSequenceStart
  | flowSequenceEnd
  | flowMappingStart
  | flowMappingEnd
  | blockEntry
  | flowEntry
  | key
  | value
  | alias (name : Text)
  | anchor (name : Text)
  /-- A tag; without a handle it is written in full. -/
  | tag (handle : Option Text) (name : Text)
  | scalar (text : Text) (plain : Bool)
  deriving DecidableEq, Repr

/-- A token that may turn out to be a key: its place in the token list and in the text. One
that is required must turn out to be a key. -/
structure PossibleKey where
  place : Nat
  required : Bool
  index : Nat
  line : Nat
  column : Nat

/-- The state of scanning. -/
structure Scanner where
  cursor : Cursor
  /-- The number of open brackets. -/
  flow : Nat
  /-- The current indentation; -1 outside all collections. -/
  indent : Int
  /-- The indentations around it. -/
  outer : List Int
  /-- Whether a key may start here. -/
  keyAllowed : Bool
  /-- The possible keys by level of brackets. -/
  keys : List (Nat × PossibleKey)
  tokens : List Token
  done : Bool

/-- The result of a scanning step. -/
abbrev Scan := Except ScanFault

/-- A fault in the text. -/
def malformed {α : Type} (why : String) : Scan α := .error (.malformed why.toList)

namespace Scanner

/-- The scanner at the start of a text. -/
def start (text : Text) : Scanner :=
  { cursor := .ofText text, flow := 0, indent := -1, outer := [], keyAllowed := true,
    keys := [], tokens := [], done := false }

/-- Whether the scanner is inside brackets. -/
def inFlow (s : Scanner) : Bool := s.flow != 0

/-- Adds a token. -/
def emit (s : Scanner) (token : Token) : Scanner := { s with tokens := s.tokens ++ [token] }

/-- The column of the place in the text. -/
def column (s : Scanner) : Int := s.cursor.column

/-! ## 1. Blanks, keys and indentation -/

/-- Moves over blanks, comments and line breaks; after a line break a key may start. -/
def skipBlanks : (fuel : Nat) → Scanner → Scanner
  | 0, s => s
  | fuel + 1, s =>
    let blank := s.cursor.skipWhile (· == ' ')
    let ended := if blank.peek == some '#' then blank.skipWhile (!isBreak ·) else blank
    if ended.peek.any isBreak then
      skipBlanks fuel
        { s with cursor := ended.lineBreak.2, keyAllowed := s.keyAllowed || !s.inFlow }
    else { s with cursor := ended }

/-- Moves to the next token. A byte order mark at the start of the text is dropped. -/
def toNextToken (s : Scanner) : Scanner :=
  let s :=
    if s.cursor.index == 0 && s.cursor.peek == some '\uFEFF' then { s with cursor := s.cursor.step }
    else s
  s.skipBlanks (s.cursor.text.length + 1)

/-- Whether a possible key can no longer be one: it must be on the same line, and near. -/
def isStale (s : Scanner) (key : PossibleKey) : Bool :=
  key.line != s.cursor.line || 1024 < s.cursor.index - key.index

/-- Forgets the keys that can no longer be keys. -/
def dropStaleKeys (s : Scanner) : Scan Scanner :=
  if s.keys.any fun (_, key) => s.isStale key && key.required then malformed "a colon is missing"
  else .ok { s with keys := s.keys.filter fun (_, key) => !s.isStale key }

/-- The possible key of the current level. -/
def currentKey? (s : Scanner) : Option PossibleKey := s.keys.lookup s.flow

/-- Forgets the possible key of the current level. -/
def dropKey (s : Scanner) : Scan Scanner :=
  if s.currentKey?.any (·.required) then malformed "a colon is missing"
  else .ok { s with keys := s.keys.filter (·.1 != s.flow) }

/-- Remembers that the next token may be a key. It must be one if it starts a line of a block
collection. -/
def saveKey (s : Scanner) : Scan Scanner :=
  if s.keyAllowed then do
    let s ← s.dropKey
    let key : PossibleKey :=
      { place := s.tokens.length, required := !s.inFlow && s.indent == s.column,
        index := s.cursor.index, line := s.cursor.line, column := s.cursor.column }
    .ok { s with keys := (s.flow, key) :: s.keys }
  else .ok s

/-- Ends the open indentations, the inner ones first, that are deeper than a column. -/
def unwindFrom (column : Int) : Int → List Int → List Token × Int × List Int
  | indent, [] => ([], indent, [])
  | indent, next :: outer =>
    if column < indent then
      let (ends, final) := unwindFrom column next outer
      (.blockEnd :: ends, final)
    else ([], indent, next :: outer)

/-- Ends the block collections that are indented deeper than a column. Inside brackets
indentation does not matter. -/
def unwind (s : Scanner) (column : Int) : Scanner :=
  if s.inFlow then s
  else
    let (ends, indent, outer) := unwindFrom column s.indent s.outer
    { s with tokens := s.tokens ++ ends, indent, outer }

/-- Begins a block collection if the column is indented deeper, and puts its token at a place. -/
def indentAt (s : Scanner) (column : Int) (place : Nat) (token : Token) : Scanner :=
  if s.indent < column then
    { s with indent := column, outer := s.indent :: s.outer,
             tokens := s.tokens.take place ++ token :: s.tokens.drop place }
  else s

/-! ## 2. Tokens with text -/

/-- A name after `&` or `*`. -/
def anchorName (cursor : Cursor) : Scan (Text × Cursor) :=
  let name := cursor.step.text.takeWhile isPlainName
  let after := cursor.step.skip name.length
  if name.isEmpty then malformed "a name is missing"
  else if endsWord after.peek || after.peek.any ("?:,]\x7d%@`".toList.contains ·) then
    .ok (name, after)
  else malformed "unexpected character after a name"

/-- Characters of a tag. -/
def isTagChar (c : Char) : Bool := isPlainName c || ";/?:@&=+$,.!~*'()[]%".toList.contains c

/-- Percent escapes at the start of a text, as bytes, and how many there are. -/
def percentBytes : Text → Option (List UInt8)
  | '%' :: a :: b :: rest =>
    match hexValue? a, hexValue? b with
    | some x, some y => (percentBytes rest).map ((x * 16 + y).toUInt8 :: ·)
    | _, _ => none
  | '%' :: _ => none
  | _ => some []

/-- The characters of a tag, percent escapes read as UTF-8. -/
def tagCharsFrom : (fuel : Nat) → Cursor → Scan (Text × Cursor)
  | 0, cursor => .ok ([], cursor)
  | fuel + 1, cursor =>
    match cursor.peek with
    | some '%' =>
      match percentBytes cursor.text with
      | none => malformed "a percent sign needs two digits"
      | some bytes =>
        match String.fromUTF8? ⟨bytes.toArray⟩ with
        | none => malformed "percent escapes that are no text"
        | some text => do
          let (more, last) ← tagCharsFrom fuel (cursor.skip (3 * bytes.length))
          .ok (text.toList ++ more, last)
    | some c =>
      if isTagChar c then do
        let (more, last) ← tagCharsFrom fuel cursor.step
        .ok (c :: more, last)
      else .ok ([], cursor)
    | none => .ok ([], cursor)

/-- The characters of a tag, at least one. -/
def tagChars (cursor : Cursor) : Scan (Text × Cursor) := do
  let (name, after) ← tagCharsFrom (cursor.text.length + 1) cursor
  if name.isEmpty then malformed "a tag is missing" else .ok (name, after)

/-- The handle of a tag: one exclamation mark, or a name between two. -/
def tagHandle (cursor : Cursor) : Scan (Text × Cursor) :=
  if cursor.peek != some '!' then malformed "a tag handle is missing"
  else if cursor.peekAt 1 == some ' ' then .ok (['!'], cursor.step)
  else
    let name := cursor.step.text.takeWhile isPlainName
    let after := cursor.step.skip name.length
    if after.peek == some '!' then .ok ('!' :: name ++ ['!'], after.step)
    else malformed "a tag handle does not end"

/-- Whether a second exclamation mark follows in the same word. -/
def hasHandle (text : Text) : Bool :=
  (text.takeWhile fun c => !endsPart (some c)).contains '!'

/-- A tag. -/
def tagToken (cursor : Cursor) : Scan (Token × Cursor) := do
  let (token, after) ←
    match cursor.peekAt 1 with
    | some '<' => do
      let (name, after) ← tagChars (cursor.skip 2)
      if after.peek == some '>' then .ok (Token.tag none name, after.step)
      else malformed "a tag does not end"
    | next =>
      if endsWord next then .ok (Token.tag none ['!'], cursor.step)
      else if hasHandle cursor.step.text then do
        let (handle, rest) ← tagHandle cursor
        let (name, after) ← tagChars rest
        .ok (Token.tag (some handle) name, after)
      else do
        let (name, after) ← tagChars cursor.step
        .ok (Token.tag (some ['!']) name, after)
  if endsPart after.peek then .ok (token, after) else malformed "unexpected character after a tag"

/-- The number of a version, at least one digit. -/
def versionPart (cursor : Cursor) : Scan (Nat × Cursor) :=
  let digits := cursor.text.takeWhile Char.isDigit
  if digits.isEmpty then malformed "a version number is missing"
  else if Decimal.digitLimit < digits.length then .error (.longVersion digits.length)
  else .ok (digits.foldl (fun n d => n * 10 + (d.toNat - '0'.toNat)) 0, cursor.skip digits.length)

/-- A directive. -/
def directiveToken (cursor : Cursor) : Scan (Token × Cursor) := do
  let name := cursor.step.text.takeWhile isPlainName
  let after := cursor.step.skip name.length
  if name.isEmpty || !endsPart after.peek then malformed "a directive needs a name"
  else
    let blank := after.skipWhile (· == ' ')
    let (token, last) ←
      if name == "YAML".toList then do
        let (major, point) ← versionPart blank
        if point.peek != some '.' then malformed "a version needs a point"
        else
          let (_, last) ← versionPart point.step
          if endsPart last.peek then .ok (Token.version major, last)
          else malformed "unexpected character after a version"
      else if name == "TAG".toList then do
        let (handle, space) ← tagHandle blank
        if space.peek != some ' ' then malformed "a space is missing after a tag handle"
        else
          let (start, last) ← tagChars (space.skipWhile (· == ' '))
          if endsPart last.peek then .ok (Token.shorthand handle start, last)
          else malformed "unexpected character after a tag"
      else .ok (Token.directive, after.skipWhile (!isBreak ·))
    .ok (token, ← last.restOfLine.mapError .malformed)

/-! ## 3. Steps -/

/-- Adds a token of the given length that opens or closes nothing. -/
def sign (s : Scanner) (token : Token) (length : Nat) : Scanner :=
  { s.emit token with cursor := s.cursor.skip length }

/-- The end of the text. -/
def readEnd (s : Scanner) : Scan Scanner := do
  let s ← (s.unwind (-1)).dropKey
  .ok { s.emit .streamEnd with keyAllowed := false, keys := [], done := true }

/-- A document marker. -/
def readMarker (s : Scanner) (token : Token) : Scan Scanner := do
  let s ← (s.unwind (-1)).dropKey
  .ok { s.sign token 3 with keyAllowed := false }

/-- A directive line. -/
def readDirective (s : Scanner) : Scan Scanner := do
  let s ← (s.unwind (-1)).dropKey
  let (token, cursor) ← directiveToken s.cursor
  .ok { s.emit token with cursor, keyAllowed := false }

/-- An opening bracket. -/
def readOpening (s : Scanner) (token : Token) : Scan Scanner := do
  let s ← s.saveKey
  .ok { s.sign token 1 with flow := s.flow + 1, keyAllowed := true }

/-- A closing bracket. -/
def readClosing (s : Scanner) (token : Token) : Scan Scanner := do
  let s ← s.dropKey
  if s.flow == 0 then malformed "a bracket closes nothing"
  else .ok { s.sign token 1 with flow := s.flow - 1, keyAllowed := false }

/-- A comma between brackets. -/
def readComma (s : Scanner) : Scan Scanner := do
  let s ← s.dropKey
  .ok { s.sign .flowEntry 1 with keyAllowed := true }

/-- A dash before an entry. -/
def readDash (s : Scanner) : Scan Scanner := do
  if !s.inFlow && !s.keyAllowed then malformed "an entry may not stand here"
  else
    let s := if s.inFlow then s else s.indentAt s.column s.tokens.length .blockSequenceStart
    let s ← s.dropKey
    .ok { s.sign .blockEntry 1 with keyAllowed := true }

/-- A question mark before a key. -/
def readQuestion (s : Scanner) : Scan Scanner := do
  if !s.inFlow && !s.keyAllowed then malformed "a key may not stand here"
  else
    let s := if s.inFlow then s else s.indentAt s.column s.tokens.length .blockMappingStart
    let s ← s.dropKey
    .ok { s.sign .key 1 with keyAllowed := !s.inFlow }

/-- A colon. It makes a key of the possible key of its level, if there is one. -/
def readColon (s : Scanner) : Scan Scanner := do
  match s.currentKey? with
  | some key =>
    let s := { s with keys := s.keys.filter (·.1 != s.flow),
                      tokens := s.tokens.take key.place ++ Token.key :: s.tokens.drop key.place }
    let s := if s.inFlow then s else s.indentAt key.column key.place .blockMappingStart
    .ok { s.sign .value 1 with keyAllowed := false }
  | none =>
    if !s.inFlow && !s.keyAllowed then malformed "a value may not stand here"
    else
      let s := if s.inFlow then s else s.indentAt s.column s.tokens.length .blockMappingStart
      let s ← s.dropKey
      .ok { s.sign .value 1 with keyAllowed := !s.inFlow }

/-- A token with text that may be a key. -/
def readNode (s : Scanner) (read : Cursor → Scan (Token × Cursor)) : Scan Scanner := do
  let s ← s.saveKey
  let (token, cursor) ← read s.cursor
  .ok { s.emit token with cursor, keyAllowed := false }

/-- A block scalar, after which a key may start. -/
def readBlock (s : Scanner) (fold : Bool) : Scan Scanner := do
  let s ← s.dropKey
  let (text, cursor) ← blockScalar fold s.indent s.cursor
  .ok { s.emit (.scalar text false) with cursor, keyAllowed := true }

/-- A plain scalar, after which a key may start if it ended at the start of a line. -/
def readPlain (s : Scanner) : Scan Scanner := do
  let s ← s.saveKey
  let (text, cursor, atLineStart) := plain s.inFlow (s.indent + 1) s.cursor
  .ok { s.emit (.scalar text true) with cursor, keyAllowed := atLineStart }

/-- Whether a plain scalar may start here. -/
def startsPlain (s : Scanner) (c : Char) : Bool :=
  let inner := !endsWord (s.cursor.peekAt 1)
  !(endsWord (some c) || "-?:,[]\x7b\x7d#&*!|>'\"%@`".toList.contains c) ||
    (inner && (c == '-' || (!s.inFlow && (c == '?' || c == ':'))))

/-- Reads a token that starts with a character. -/
def readToken (s : Scanner) (c : Char) : Scan Scanner :=
  let next := s.cursor.peekAt 1
  let atStart := s.cursor.column == 0
  if c == '%' && atStart then s.readDirective
  else if c == '-' && atStart && s.cursor.atDocumentMarker then s.readMarker .documentStart
  else if c == '.' && atStart && s.cursor.atDocumentMarker then s.readMarker .documentEnd
  else if c == '[' then s.readOpening .flowSequenceStart
  else if c == '\x7b' then s.readOpening .flowMappingStart
  else if c == ']' then s.readClosing .flowSequenceEnd
  else if c == '\x7d' then s.readClosing .flowMappingEnd
  else if c == ',' then s.readComma
  else if c == '-' && endsWord next then s.readDash
  else if c == '?' && (s.inFlow || endsWord next) then s.readQuestion
  else if c == ':' && (s.inFlow || endsWord next) then s.readColon
  else if c == '*' then s.readNode fun cursor => do
    let (name, after) ← anchorName cursor
    .ok (.alias name, after)
  else if c == '&' then s.readNode fun cursor => do
    let (name, after) ← anchorName cursor
    .ok (.anchor name, after)
  else if c == '!' then s.readNode tagToken
  else if c == '|' && !s.inFlow then s.readBlock false
  else if c == '>' && !s.inFlow then s.readBlock true
  else if c == '\'' || c == '"' then s.readNode fun cursor => do
    let (text, after) ← quotedScalar (c == '"') cursor
    .ok (.scalar text false, after)
  else if s.startsPlain c then s.readPlain
  else malformed "a character that starts no token"

/-- Reads the next token. -/
def next (s : Scanner) : Scan Scanner := do
  let s ← s.toNextToken.dropStaleKeys
  let s := s.unwind s.column
  match s.cursor.peek with
  | none => s.readEnd
  | some c => s.readToken c

/-- How many tokens can be read before the next one is known: those before the first possible
key. -/
def settled (s : Scanner) : Nat :=
  (s.keys.filter fun (_, key) => !s.isStale key).foldl (fun least (_, key) => min least key.place)
    s.tokens.length

end Scanner

/-- The tokens of a text as far as they can be read, and the fault that ends them. -/
structure Tokens where
  list : List Token
  fault : Option ScanFault

namespace Tokens

/-- Reads tokens to the end of the text. `fuel` bounds their number. -/
def scanFrom : (fuel : Nat) → Scanner → Tokens
  | 0, s => ⟨s.tokens, some (.malformed "the text does not end")⟩
  | fuel + 1, s =>
    match s.next with
    | .error fault => ⟨s.tokens.take s.settled, some fault⟩
    | .ok s => if s.done then ⟨s.tokens, none⟩ else scanFrom fuel s

/-- Characters that a text may hold. -/
def isAllowed (c : Char) : Bool :=
  c == '\t' || c == '\n' || c == '\r' || c == '\x85' || (' ' ≤ c && c ≤ '~') ||
    (0xA0 ≤ c.toNat && c.toNat ≤ 0xD7FF) || (0xE000 ≤ c.toNat && c.toNat ≤ 0xFFFD) ||
    0x10000 ≤ c.toNat

/-- The tokens of a text. -/
def ofText (text : Text) : Tokens :=
  if text.all isAllowed then scanFrom (text.length + 2) (Scanner.start text)
  else ⟨[], some (.malformed "a control character")⟩

end Tokens

end CodeAtlas.Yaml
