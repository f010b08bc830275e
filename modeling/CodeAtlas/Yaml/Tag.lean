/-
  File:      CodeAtlas/Yaml/Tag.lean
  Subject:   What kind of value a scalar stands for.

  A plain scalar is of the first kind whose form it has: truth value, number with
  a point, integer, merge key, null, time, default value; anything else is a text.
  One line feed at the end of a scalar does not count.

  * `Tag.ofPlain`: the kind of a plain scalar.
  * `Tag.ofName`: the kind that a tag names in full.
-/
import CodeAtlas.Text.Basic

namespace CodeAtlas.Yaml

/-- The kinds of nodes. -/
inductive Tag where
  | null
  | bool
  | int
  | float
  | timestamp
  | str
  /-- The key of a mapping whose entries are taken over. -/
  | merge
  /-- The sign for a default value. -/
  | value
  | seq
  | map
  | binary
  | set
  | omap
  | pairs
  | unknown
  deriving DecidableEq, Repr

/-- A text without one line feed at its end. A lone line feed stays. -/
def withoutFeed (text : Text) : Text :=
  match Text.cutLast? '\n' text with
  | some (body@(_ :: _), []) => body
  | _ => text

/-! ## 1. Numbers -/

/-- The text without one leading sign. -/
def unsigned : Text → Text
  | '+' :: rest => rest
  | '-' :: rest => rest
  | text => text

/-- A digit or an underscore. -/
def isGrouped (c : Char) : Bool := c.isDigit || c == '_'

/-- A digit, and digits and underscores after it. -/
def isWholePart : Text → Bool
  | c :: rest => c.isDigit && rest.all isGrouped
  | [] => false

/-- One or two digits below sixty. -/
def isSixtieth : Text → Bool
  | [d] => d.isDigit
  | [t, d] => '0' ≤ t && t ≤ '5' && d.isDigit
  | _ => false

/-- Whole part and sixtieths between colons; at least one colon. -/
def isSexagesimal (text : Text) : Bool :=
  match text.splitOn ':' with
  | whole :: groups@(_ :: _) => isWholePart whole && groups.all isSixtieth
  | _ => false

/-- A hexadecimal digit. -/
def isHexDigit (c : Char) : Bool :=
  c.isDigit || ('a' ≤ c && c ≤ 'f') || ('A' ≤ c && c ≤ 'F')

/-- The form of an integer: binary, hexadecimal, octal, decimal or to the base sixty. -/
def isInteger (text : Text) : Bool :=
  match unsigned text with
  | ['0'] => true
  | '0' :: 'b' :: rest => !rest.isEmpty && rest.all fun c => c == '0' || c == '1' || c == '_'
  | '0' :: 'x' :: rest => !rest.isEmpty && rest.all fun c => isHexDigit c || c == '_'
  | '0' :: rest => rest.all fun c => ('0' ≤ c && c ≤ '7') || c == '_'
  | body => isWholePart body || isSexagesimal body

/-- An exponent with its sign, or nothing. -/
def isExponent : Text → Bool
  | [] => true
  | mark :: sign :: digits =>
    (mark == 'e' || mark == 'E') && (sign == '+' || sign == '-') && !digits.isEmpty &&
      digits.all Char.isDigit
  | _ => false

/-- What follows the point of a number. -/
def isFraction (text : Text) : Bool := isExponent (text.dropWhile isGrouped)

/-- The form of a number with a point. -/
def isFloat (text : Text) : Bool :=
  let body := unsigned text
  match Text.cut? ['.'] body with
  | none => false
  | some ([], after) =>
    ["inf".toList, "Inf".toList, "INF".toList].contains after ||
      (body == text &&
        (["nan".toList, "NaN".toList, "NAN".toList].contains after ||
          (after.head?.any Char.isDigit && isFraction after)))
  | some (whole, after) =>
    (isWholePart whole && isFraction after) || (isSexagesimal whole && after.all isGrouped)

/-! ## 2. Times -/

/-- A date, and a time of day with its distance from universal time. -/
structure Timestamp where
  year : Nat
  month : Nat
  day : Nat
  clock : Option (Nat × Nat × Nat)
  /-- The distance from universal time in minutes. -/
  offset : Option Int
  /-- Whether month and day have two digits each. -/
  full : Bool
  deriving DecidableEq, Repr

/-- The value of digits. -/
def digitsValue (digits : Text) : Nat :=
  digits.foldl (fun n d => n * 10 + (d.toNat - '0'.toNat)) 0

/-- Between `least` and `most` digits: their value, their number, and the rest. -/
def digits? (least most : Nat) (text : Text) : Option (Nat × Nat × Text) :=
  let digits := (text.takeWhile Char.isDigit).take most
  if digits.length < least then none
  else some (digitsValue digits, digits.length, text.drop digits.length)

/-- The text after a character, which must come first. -/
def after? (mark : Char) : Text → Option Text
  | c :: rest => if c == mark then some rest else none
  | [] => none

/-- A space or a tab. -/
def isSpace (c : Char) : Bool := c == ' ' || c == '\t'

/-- The distance from universal time at the end of a time: nothing, `Z`, or a sign with hours
and perhaps minutes. -/
def offset? (text : Text) : Option (Option Int) :=
  match text, text.dropWhile isSpace with
  | [], _ => some none
  | _, ['Z'] => some (some 0)
  | _, sign :: rest => do
    if sign != '+' && sign != '-' then none
    else
      let (hours, _, rest) ← digits? 1 2 rest
      let minutes ←
        match rest with
        | [] => some 0
        | _ => do
          let (minutes, _, rest) ← digits? 2 2 (← after? ':' rest)
          if rest.isEmpty then some minutes else none
      let total : Int := hours * 60 + minutes
      some (some (if sign == '-' then -total else total))
  | _, [] => none

/-- The time of day after a date, and its distance from universal time. -/
def clock? (text : Text) : Option ((Nat × Nat × Nat) × Option Int) := do
  let start ←
    match text with
    | 'T' :: rest | 't' :: rest => some rest
    | c :: rest => if isSpace c then some (rest.dropWhile isSpace) else none
    | [] => none
  let (hour, _, rest) ← digits? 1 2 start
  let (minute, _, rest) ← digits? 2 2 (← after? ':' rest)
  let (second, _, rest) ← digits? 2 2 (← after? ':' rest)
  let rest :=
    match rest with
    | '.' :: fraction => fraction.dropWhile Char.isDigit
    | _ => rest
  let offset ← offset? rest
  some ((hour, minute, second), offset)

/-- Reads a date or a time that takes up all of a text. -/
def timestamp? (text : Text) : Option Timestamp := do
  let (year, _, rest) ← digits? 4 4 text
  let (month, m, rest) ← digits? 1 2 (← after? '-' rest)
  let (day, d, rest) ← digits? 1 2 (← after? '-' rest)
  let full := m == 2 && d == 2
  match rest with
  | [] => some ⟨year, month, day, none, none, full⟩
  | _ => do
    let (clock, offset) ← clock? rest
    some ⟨year, month, day, some clock, offset, full⟩

/-- The form of a time: a date alone has two digits for month and day. -/
def isTimestamp (text : Text) : Bool :=
  (timestamp? text).any fun stamp => stamp.clock.isSome || stamp.full

/-! ## 3. Kinds -/

/-- The spellings of a word in small letters, with a capital, and in capitals. -/
def spellings (word : String) : List Text :=
  [word.toList, word.toList.take 1 |>.map Char.toUpper |>.append (word.toList.drop 1),
   word.toList.map Char.toUpper]

/-- The words for truth values. -/
def isTruth (text : Text) : Bool :=
  ["yes", "no", "true", "false", "on", "off"].any fun word => (spellings word).contains text

/-- The words for null. -/
def isNull (text : Text) : Bool :=
  text.isEmpty || text == ['~'] || (spellings "null").contains text

namespace Tag

/-- The kind whose form a text has. -/
def ofForm (text : Text) : Tag :=
  if isTruth text then .bool
  else if isFloat text then .float
  else if isInteger text then .int
  else if text == ['<', '<'] then .merge
  else if isNull text then .null
  else if isTimestamp text then .timestamp
  else if text == ['='] then .value
  else if text == ['!'] || text == ['&'] || text == ['*'] then .unknown
  else .str

/-- The kind of a plain scalar. -/
def ofPlain (text : Text) : Tag := ofForm (withoutFeed text)

/-- Whether the values of a kind are collections, which cannot be keys. -/
def isCollection : Tag → Bool
  | .seq | .map | .set | .omap | .pairs => true
  | _ => false

/-- What the names of the standard kinds start with. -/
def standardStart : Text := "tag:yaml.org,2002:"

/-- The names of the standard kinds. -/
def standard : List (Text × Tag) :=
  [("null".toList, .null), ("bool".toList, .bool), ("int".toList, .int), ("float".toList, .float),
   ("timestamp".toList, .timestamp), ("str".toList, .str), ("merge".toList, .merge),
   ("value".toList, .value), ("seq".toList, .seq), ("map".toList, .map),
   ("binary".toList, .binary), ("set".toList, .set), ("omap".toList, .omap),
   ("pairs".toList, .pairs)]

/-- The kind that a tag names in full. -/
def ofName (name : Text) : Tag :=
  if standardStart.isPrefixOf name then
    (standard.lookup (name.drop standardStart.length)).getD .unknown
  else .unknown

end Tag

end CodeAtlas.Yaml
