/-
  File:      CodeAtlas/Yaml/Scalar.lean
  Subject:   Reading scalars: plain, quoted, and in blocks.

  * `plain`: a scalar without quotes. It may go on over several lines, which are
    joined by spaces.
  * `quotedScalar`: between single or double quotes; escapes only between double ones.
  * `blockScalar`: indented lines, kept as they are or folded.

  Every function returns the text of the scalar and the place after it. `fuel`
  bounds the number of steps, each of which moves on.
-/
import CodeAtlas.Text.Half
import CodeAtlas.Yaml.Cursor

namespace CodeAtlas.Yaml

/-! ## 1. Folding -/

/-- What a line break and the breaks after it stand for: a single line feed is a space, further
breaks stand for themselves. -/
def folded (first : Text) (more : Text) : Text :=
  if first != ['\n'] then first ++ more
  else if more.isEmpty then [' ']
  else more

/-! ## 2. Plain scalars -/

/-- The longest run of characters of a plain scalar. A colon ends it before a blank, and inside
brackets so do the signs of flow collections. -/
def plainRun (inFlow : Bool) : Text → Text
  | [] => []
  | c :: rest =>
    let next := rest.head?
    if endsWord (some c) ||
        (c == ':' && (endsWord next || (inFlow && next.any (",[]\x7b\x7d".toList.contains ·)))) ||
        (inFlow && ",?[]\x7b\x7d".toList.contains c) then []
    else c :: plainRun inFlow rest

/-- The line breaks and spaces before the next line of a plain scalar. `none` at a document
marker. -/
def plainBreaks : (fuel : Nat) → Cursor → Option Text × Cursor
  | 0, cursor => (some [], cursor)
  | fuel + 1, cursor =>
    if cursor.peek == some ' ' then plainBreaks fuel cursor.step
    else if cursor.peek.any isBreak then
      let (first, after) := cursor.lineBreak
      if after.atDocumentMarker then (none, after)
      else
        let (more, last) := plainBreaks fuel after
        (more.map (first ++ ·), last)
    else (some [], cursor)

/-- The spaces between two runs of a plain scalar, the place after them, and whether a line was
ended. Nothing is returned where the scalar cannot go on. -/
def plainSpaces (cursor : Cursor) : Text × Cursor × Bool :=
  let spaces := cursor.text.takeWhile (· == ' ')
  let after := cursor.skip spaces.length
  if after.peek.any isBreak then
    let (first, next) := after.lineBreak
    if next.atDocumentMarker then ([], next, true)
    else
      match plainBreaks next.text.length next with
      | (some more, last) => (folded first more, last, true)
      | (none, last) => ([], last, true)
  else (spaces, after, false)

/-- A plain scalar after `spaces`: its text, the place after it, and whether it ended at the
start of a line. Outside brackets every line must be indented by `indent`. -/
def plainFrom (inFlow : Bool) (indent : Int) :
    (fuel : Nat) → (spaces : Text) → (atLineStart : Bool) → Cursor → Text × Cursor × Bool
  | 0, _, atLineStart, cursor => ([], cursor, atLineStart)
  | fuel + 1, spaces, atLineStart, cursor =>
    if cursor.peek == some '#' then ([], cursor, atLineStart)
    else
      match plainRun inFlow cursor.text with
      | [] => ([], cursor, atLineStart)
      | run =>
        let (between, next, ended) := plainSpaces (cursor.skip run.length)
        if between.isEmpty || next.peek == some '#' || (!inFlow && (next.column : Int) < indent) then
          (spaces ++ run, next, ended)
        else
          let (more, last, final) := plainFrom inFlow indent fuel between ended next
          (spaces ++ run ++ more, last, final)

/-- A plain scalar. -/
def plain (inFlow : Bool) (indent : Int) (cursor : Cursor) : Text × Cursor × Bool :=
  plainFrom inFlow indent (cursor.text.length + 1) [] false cursor

/-! ## 3. Quoted scalars -/

/-- The character that a one-letter escape stands for. -/
def escaped? (c : Char) : Option Char :=
  match c with
  | '0' => some '\x00'
  | 'a' => some '\x07'
  | 'b' => some '\x08'
  | 't' | '\t' => some '\t'
  | 'n' => some '\n'
  | 'v' => some '\x0b'
  | 'f' => some '\x0c'
  | 'r' => some '\r'
  | 'e' => some '\x1b'
  | ' ' | '"' | '\\' | '/' => some c
  | 'N' => some '\x85'
  | '_' => some '\xa0'
  | 'L' => some '\u2028'
  | 'P' => some '\u2029'
  | _ => none

/-- The number of digits of a numeric escape. -/
def escapeDigits? (c : Char) : Option Nat :=
  if c == 'x' then some 2 else if c == 'u' then some 4 else if c == 'U' then some 8 else none

/-- The value of a hexadecimal digit. -/
def hexValue? (c : Char) : Option Nat :=
  if c.isDigit then some (c.toNat - '0'.toNat)
  else if 'a' ≤ c && c ≤ 'f' then some (c.toNat - 'a'.toNat + 10)
  else if 'A' ≤ c && c ≤ 'F' then some (c.toNat - 'A'.toNat + 10)
  else none

/-- The value of `n` hexadecimal digits. -/
def hexNumber? (n : Nat) (text : Text) : Option Nat :=
  if text.length < n then none
  else (text.take n).foldlM (fun value c => (hexValue? c).map (value * 16 + ·)) 0

/-- Why a text is no configuration. -/
inductive ScanFault where
  | malformed (why : Text)
  /-- An escape asks for a character that does not exist. -/
  | noCharacter (code : Nat)
  /-- A version number with more digits than are read. -/
  | longVersion (digits : Nat)
  deriving DecidableEq, Repr

/-- The line breaks after one in a quoted scalar; blanks between them are dropped. A document
marker may not stand there. -/
def quotedBreaks : (fuel : Nat) → Cursor → Except ScanFault (Text × Cursor)
  | 0, cursor => .ok ([], cursor)
  | fuel + 1, cursor =>
    if cursor.atDocumentMarker then .error (.malformed "a document marker in a quoted scalar")
    else
      let blank := cursor.skipWhile fun c => c == ' ' || c == '\t'
      if blank.peek.any isBreak then do
        let (first, after) := blank.lineBreak
        let (more, last) ← quotedBreaks fuel after
        .ok (first ++ more, last)
      else .ok ([], blank)

/-- An escape after its backslash. -/
def escape (cursor : Cursor) : Except ScanFault (Text × Cursor) :=
  match cursor.peek with
  | none => .error (.malformed "an escape is missing")
  | some c =>
    match escaped? c with
    | some d => .ok ([d], cursor.step)
    | none =>
      match escapeDigits? c with
      | some n =>
        match hexNumber? n cursor.step.text with
        | none => .error (.malformed "an escape needs hexadecimal digits")
        | some code =>
          if code < 0x110000 then .ok (Text.ofCode code, cursor.skip (n + 1))
          else .error (.noCharacter code)
      | none =>
        if isBreak c then quotedBreaks cursor.text.length cursor.lineBreak.2
        else .error (.malformed "unknown escape")

/-- The blanks and breaks between the words of a quoted scalar. -/
def quotedSpaces (cursor : Cursor) : Except ScanFault (Text × Cursor) :=
  let blanks := cursor.text.takeWhile fun c => c == ' ' || c == '\t'
  let after := cursor.skip blanks.length
  match after.peek with
  | none => .error (.malformed "a quoted scalar does not end")
  | some c =>
    if isBreak c then do
      let (first, next) := after.lineBreak
      let (more, last) ← quotedBreaks next.text.length next
      .ok (folded first more, last)
    else .ok (blanks, after)

/-- A quoted scalar after its opening quote: its text and the place after its closing quote. -/
def quotedFrom (double : Bool) : (fuel : Nat) → Cursor → Except ScanFault (Text × Cursor)
  | 0, _ => .error (.malformed "a quoted scalar does not end")
  | fuel + 1, cursor =>
    let go (part : Text) (after : Cursor) : Except ScanFault (Text × Cursor) := do
      let (more, last) ← quotedFrom double fuel after
      .ok (part ++ more, last)
    match cursor.peek with
    | none => .error (.malformed "a quoted scalar does not end")
    | some c =>
      if c == '\'' && !double then
        if cursor.peekAt 1 == some '\'' then go ['\''] (cursor.skip 2) else .ok ([], cursor.step)
      else if c == '"' && double then .ok ([], cursor.step)
      else if c == '\\' && double then do
        let (part, after) ← escape cursor.step
        go part after
      else if endsWord (some c) then do
        let (part, after) ← quotedSpaces cursor
        go part after
      else go [c] cursor.step

/-- A quoted scalar. -/
def quotedScalar (double : Bool) (cursor : Cursor) : Except ScanFault (Text × Cursor) :=
  quotedFrom double (cursor.text.length + 1) cursor.step

/-! ## 4. Block scalars -/

/-- What becomes of the line breaks at the end of a block scalar. -/
inductive Chomping where
  | strip
  | clip
  | keep
  deriving DecidableEq, Repr

/-- A sign for the end of the block. -/
def chomping? (c : Option Char) : Option Chomping :=
  if c == some '+' then some .keep else if c == some '-' then some .strip else none

/-- A digit for the indentation. -/
def increment? (c : Option Char) : Option Nat :=
  c.bind fun d => if d.isDigit then some (d.toNat - '0'.toNat) else none

/-- The signs after the mark of a block scalar, in either order. -/
def blockSigns (cursor : Cursor) : Except ScanFault (Chomping × Option Nat × Cursor) :=
  let read : Option Chomping × Option Nat × Cursor :=
    match chomping? cursor.peek with
    | some chomping =>
      match increment? (cursor.peekAt 1) with
      | some n => (some chomping, some n, cursor.skip 2)
      | none => (some chomping, none, cursor.step)
    | none =>
      match increment? cursor.peek with
      | some n =>
        match chomping? (cursor.peekAt 1) with
        | some chomping => (some chomping, some n, cursor.skip 2)
        | none => (none, some n, cursor.step)
      | none => (none, none, cursor)
  match read with
  | (chomping, increment, after) =>
    if increment == some 0 then .error (.malformed "an indentation of zero")
    else if endsPart after.peek then .ok (chomping.getD .clip, increment, after)
    else .error (.malformed "unknown sign of a block scalar")

/-- The empty lines at the start of a block and the greatest indentation seen there. -/
def blockIndentation : (fuel : Nat) → (widest : Nat) → Cursor → Text × Nat × Cursor
  | 0, widest, cursor => ([], widest, cursor)
  | fuel + 1, widest, cursor =>
    if cursor.peek == some ' ' then
      let next := cursor.step
      blockIndentation fuel (max widest next.column) next
    else if cursor.peek.any isBreak then
      let (first, next) := cursor.lineBreak
      let (more, final, last) := blockIndentation fuel widest next
      (first ++ more, final, last)
    else ([], widest, cursor)

/-- Moves over at most the spaces up to a column. -/
def indentTo (indent : Nat) (cursor : Cursor) : Cursor :=
  cursor.skip (min (indent - cursor.column) (cursor.text.takeWhile (· == ' ')).length)

/-- The empty lines before the next line of a block. -/
def blockBreaks (indent : Nat) : (fuel : Nat) → Cursor → Text × Cursor
  | 0, cursor => ([], cursor)
  | fuel + 1, cursor =>
    let inner := indentTo indent cursor
    if inner.peek.any isBreak then
      let (first, next) := inner.lineBreak
      let (more, last) := blockBreaks indent fuel next
      (first ++ more, last)
    else ([], inner)

/-- Whether a line of a block starts with a blank. -/
def startsBlank (cursor : Cursor) : Bool := cursor.peek == some ' ' || cursor.peek == some '\t'

/-- The lines of a block after empty lines `breaks`: their text without the end, the last line
break, the empty lines after it, and the place after the block. -/
def blockLines (fold : Bool) (indent : Nat) :
    (fuel : Nat) → (breaks : Text) → Cursor → Text × Text × Text × Cursor
  | 0, breaks, cursor => ([], [], breaks, cursor)
  | fuel + 1, breaks, cursor =>
    if cursor.column == indent && cursor.peek.isSome then
      let line := cursor.text.takeWhile (!isBreak ·)
      let (ending, next) := (cursor.skip line.length).lineBreak
      let (after, inner) := blockBreaks indent (next.text.length + 1) next
      if inner.column == indent && inner.peek.isSome then
        let joined :=
          if fold && ending == ['\n'] && !startsBlank cursor && !startsBlank inner then
            if after.isEmpty then [' '] else []
          else ending
        let (more, last) := blockLines fold indent fuel after inner
        (breaks ++ line ++ joined ++ more, last)
      else (breaks ++ line, ending, after, inner)
    else ([], [], breaks, cursor)

/-- A block scalar after its mark, inside a collection that is indented by `indent`. -/
def blockScalar (fold : Bool) (indent : Int) (cursor : Cursor) :
    Except ScanFault (Text × Cursor) := do
  let (chomping, increment, signs) ← blockSigns cursor.step
  let start ← (signs.restOfLine).mapError .malformed
  let least := (max (indent + 1) 1).toNat
  let (breaks, column, first) :=
    match increment with
    | some n =>
      let column := least + n - 1
      let (breaks, first) := blockBreaks column (start.text.length + 1) start
      (breaks, column, first)
    | none =>
      let (breaks, widest, first) := blockIndentation start.text.length 0 start
      (breaks, max least widest, first)
  let (lines, ending, after, last) := blockLines fold column (first.text.length + 1) breaks first
  let tail :=
    match chomping with
    | .strip => []
    | .clip => ending
    | .keep => ending ++ after
  .ok (lines ++ tail, last)

end CodeAtlas.Yaml
