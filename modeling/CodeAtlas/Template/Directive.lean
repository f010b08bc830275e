/-
  File:      CodeAtlas/Template/Directive.lean
  Subject:   Texts with directives, which values are filled into.

  A directive is a percent sign, perhaps a key between parentheses, marks, a width,
  a number of places, and a letter that says how the value is shown. Each
  directive takes the next value; one with a key takes the value of the key in a
  table. All values must be taken, unless a table or a list is given for them.

  * `Directive`: marks, width, places and letter.
  * `Directive.shown`: a value as a directive shows it.
  * `fillDirectives`: the text with its directives filled in.
-/
import CodeAtlas.Decimal.Places
import CodeAtlas.Template.Attribute

namespace CodeAtlas.Template

open Value (undefinedFault)

/-- A directive. -/
structure Directive where
  marks : Text
  width : Nat
  places : Option Nat
  letter : Char

/-- The values for directives. -/
structure Supply where
  /-- The values that are not taken yet. -/
  rest : List Value
  /-- What keys are looked up in; nothing need be taken then. -/
  keyed : Option Value

namespace Supply

/-- The values that a value stands for: a tuple for its items, any other for itself. -/
def ofValue (value : Value) : Supply :=
  match value with
  | .tuple items => ⟨items, none⟩
  | .table _ | .list _ | .range .. | .undefined => ⟨[value], some value⟩
  | _ => ⟨[value], none⟩

/-- The next value. -/
def next (supply : Supply) : Except Fault (Value × Supply) :=
  match supply.rest with
  | value :: rest => .ok (value, { supply with rest })
  | [] => .error (.type "not enough arguments for format string")

/-- The values after the one of a key has been put first. -/
def atKey (supply : Supply) (key : Text) : Except Fault Supply :=
  match supply.keyed with
  | none => .error (.type "format requires a mapping")
  | some .undefined => .error undefinedFault
  | some (.table entries) =>
    match Value.lookup? (.text key) entries with
    | some value => .ok { supply with rest := [value] }
    | none => .error (.unfit .key (Text.quoted key))
  | some value =>
    .error (.type (value.kind ++ " indices must be integers or slices, not str"))

end Supply

/-! ## 1. Showing -/

namespace Directive

/-- Whether a directive has a mark. -/
def has (directive : Directive) (mark : Char) : Bool := directive.marks.contains mark

/-- Blanks or zeros around a text up to the width. Zeros come after the sign and the mark of a
base. -/
def padded (directive : Directive) (numeric : Bool) (sign body : Text) : Text :=
  let gap := directive.width - (Text.characters (sign ++ body)).length
  if directive.has '-' then sign ++ body ++ List.replicate gap ' '
  else if numeric && directive.has '0' then sign ++ List.replicate gap '0' ++ body
  else List.replicate gap ' ' ++ sign ++ body

/-- The sign of a number. -/
def signOf (directive : Directive) (negative : Bool) : Text :=
  if negative then ['-'] else if directive.has '+' then ['+']
  else if directive.has ' ' then [' '] else []

/-- A text, cut to the places. -/
def onText (directive : Directive) (text : Text) : Text :=
  directive.padded false [] (match directive.places with
    | some places => ((Text.characters text).take places).flatten
    | none => text)

/-- An integer. -/
def onInteger (directive : Directive) (n : Int) : Text :=
  let (base, mark) : Nat × Text :=
    match directive.letter with
    | 'x' => (16, "0x")
    | 'X' => (16, "0X")
    | 'o' => (8, "0o")
    | _ => (10, [])
  let digits := Nat.toDigits base n.natAbs
  let cased := if directive.letter == 'X' then digits.map Char.toUpper else digits
  let whole := List.replicate (directive.places.getD 0 - cased.length) '0' ++ cased
  directive.padded true
    (directive.signOf (n < 0) ++ if directive.has '#' then mark else []) whole

/-- A floating point number. -/
def onFloat (directive : Directive) (x : Float) : Text :=
  let places := directive.places.getD 6
  let kept := directive.has '#'
  let body : Text :=
    if x.isNaN then "nan" else if x.isInf then "inf"
    else
      match directive.letter.toLower with
      | 'f' => Decimal.fixed kept places x
      | 'e' => Decimal.scientific kept places x
      | _ => Decimal.general kept places x
  let cased := if directive.letter.isUpper then body.map Char.toUpper else body
  directive.padded true (directive.signOf (Decimal.isSigned x && !x.isNaN)) cased

/-- The integer that a value has for a directive. -/
def integerOf (directive : Directive) (value : Value) : Except Fault Int :=
  let toBase := directive.letter == 'x' || directive.letter == 'X' || directive.letter == 'o'
  let wrong (wanted : Text) : Fault :=
    .type (['%', directive.letter] ++ " format: " ++ wanted ++ " is required, not " ++ value.kind)
  match value, value.asNumber? with
  | .undefined, _ => .error (if toBase then wrong "an integer" else undefinedFault)
  | _, some n => .ok n
  | .float x, none =>
    if toBase then .error (wrong "an integer")
    else if x.isNaN then .error (.unfit .value "cannot convert float NaN to integer")
    else
      match Decimal.Dyadic.ofFloat? x with
      | some d => .ok ((d.numerator * Nat.pow 2 d.exponent.toNat).tdiv
          (Nat.pow 2 (-d.exponent).toNat))
      | none => .error (.unfit .overflow "cannot convert float infinity to integer")
  | _, none => .error (wrong (if toBase then "an integer" else "a real number"))

/-- The floating point number that a value has. -/
def floatOf (value : Value) : Except Fault Float :=
  match value, value.asNumber? with
  | .undefined, _ => .error undefinedFault
  | .float x, _ => .ok x
  | _, some n =>
    match Decimal.ofInt? n with
    | some x => .ok x
    | none => .error (.unfit .overflow "int too large to convert to float")
  | _, none => .error (.type ("must be real number, not " ++ value.kind))

/-- A single character: a text of one, or a number of one. -/
def characterOf (value : Value) : Except Fault Text :=
  match value.asText?.map Text.characters, value.asNumber? with
  | some [character], _ => .ok character
  | _, some n =>
    if 0 ≤ n && n < 0x110000 then .ok (Text.ofCode n.toNat)
    else .error (.unfit .overflow "%c arg not in range(0x110000)")
  | _, none => .error (.type "%c requires int or char")

/-- A value as a directive shows it; `position` is that of its letter. `hide` is what is done to
the text of a value before. -/
def shown (directive : Directive) (hide : Text → Text) (position : Nat) (value : Value) :
    Except Fault Text := do
  match directive.letter with
  | 's' => .ok (directive.onText (match value with
      | .markup body => body
      | _ => hide value.shown))
  | 'r' => .ok (directive.onText (hide value.inner))
  | 'a' => .ok (directive.onText (Text.ascii (hide value.inner)))
  | 'd' | 'i' | 'u' | 'x' | 'X' | 'o' => return directive.onInteger (← directive.integerOf value)
  | 'e' | 'E' | 'f' | 'F' | 'g' | 'G' => return directive.onFloat (← floatOf value)
  | 'c' => return directive.padded false [] (← characterOf value)
  | c =>
    let sign := if ' ' ≤ c && c ≤ '~' then c else '?'
    .error (.unfit .value ("unsupported format character '" ++ [sign] ++ "' (0x" ++
      Nat.toDigits 16 c.toNat ++ ") at index " ++ Text.ofNat position))

end Directive

/-! ## 2. Reading -/

/-- The key up to the parenthesis that closes it, and the rest. -/
def keyRest : (opened : Nat) → Text → Option (Text × Text)
  | _, [] => none
  | opened, c :: rest =>
    if c == ')' && opened == 0 then some ([], rest)
    else
      let inside := if c == '(' then opened + 1 else if c == ')' then opened - 1 else opened
      (keyRest inside rest).map fun (key, after) => (c :: key, after)

/-- The key at the start of a text, if there is one: the values from there on, and the rest. -/
def takeKey (supply : Supply) : Text → Except Fault (Supply × Text)
  | '(' :: rest =>
    if supply.keyed.isNone then .error (.type "format requires a mapping")
    else
      match keyRest 0 rest with
      | some (key, after) => do return (← supply.atKey key, after)
      | none => .error (.unfit .value "incomplete format key")
  | text => .ok (supply, text)

/-- A number at the start of a text, or a star for the next value. -/
def takeNumber (supply : Supply) (text : Text) : Except Fault (Option Int × Supply × Text) :=
  match text with
  | '*' :: rest => do
    let (value, supply) ← supply.next
    match value.asNumber? with
    | some n => return (some n, supply, rest)
    | none => .error (.type "* wants int")
  | _ =>
    let digits := text.takeWhile Char.isDigit
    .ok ((Decimal.natural? 10 digits).map Int.ofNat, supply, text.drop digits.length)

/-- The places at the start of a text. A point alone means none. -/
def takePlaces (supply : Supply) : Text → Except Fault (Option Nat × Supply × Text)
  | '.' :: rest => do
    let (places, supply, after) ← takeNumber supply rest
    return (some (places.getD 0).toNat, supply, after)
  | text => .ok (none, supply, text)

/-- Whether a character is a mark of a directive. -/
def isDirectiveMark (c : Char) : Bool := ['-', '+', ' ', '#', '0'].contains c

/-- A directive without its percent sign: the directive, the values from there on, and the
rest. -/
def takeDirective (supply : Supply) (text : Text) :
    Except Fault (Directive × Supply × Text) := do
  let (supply, text) ← takeKey supply text
  let marks := text.takeWhile isDirectiveMark
  let (width, supply, text) ← takeNumber supply (text.drop marks.length)
  let (places, supply, text) ← takePlaces supply text
  let size := width.getD 0
  let sized := if ['h', 'l', 'L'].contains (text.headD ' ') then text.tail else text
  match sized with
  | letter :: rest =>
    .ok (⟨if size < 0 then '-' :: marks else marks, size.natAbs, places, letter⟩, supply, rest)
  | [] => .error (.unfit .value "incomplete format")

/-- Fills the directives of a text in. `total` is the length of the whole text, and `fuel` bounds
the number of steps. -/
def fillFrom (hide : Text → Text) (total : Nat) : (fuel : Nat) → Supply → Text → Except Fault Text
  | 0, _, _ => .ok []
  | _ + 1, supply, [] =>
    if supply.rest.isEmpty || supply.keyed.isSome then .ok []
    else .error (.type "not all arguments converted during string formatting")
  | fuel + 1, supply, '%' :: text => do
    let (directive, supply, rest) ← takeDirective supply text
    if directive.letter == '%' then return '%' :: (← fillFrom hide total fuel supply rest)
    else
      let (value, supply) ← supply.next
      let shown ← directive.shown hide (total - rest.length - 1) value
      return shown ++ (← fillFrom hide total fuel supply rest)
  | fuel + 1, supply, c :: rest => do return c :: (← fillFrom hide total fuel supply rest)

/-- A text with its directives filled in; `hide` is what is done to the text of a value before. -/
def fillDirectives (hide : Text → Text) (text : Text) (value : Value) : Except Fault Text :=
  fillFrom hide text.length (text.length + 1) (.ofValue value) text

end CodeAtlas.Template
