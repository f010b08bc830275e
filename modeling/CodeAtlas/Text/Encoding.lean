/-
  File:      CodeAtlas/Text/Encoding.lean
  Subject:   From bytes to texts and back.

  * `Encoding.named?`: which encoding a name asks for; case and punctuation of
    the name do not matter.
  * `Encoding.decode`: the text of some bytes, or the first offending bytes
    with their position (`DecodeFault`).
  * `Encoding.encode`: the bytes of a text; a character that the encoding lacks
    is written as a decimal character reference, and so is half a character.
  * `Codec`: an encoding that is not spelled out here.
  * `unifyBreaks`: every line break of a text as a line feed.

  UTF-8 is read by a machine that takes one byte at a time, so that the bytes of
  an unfinished character are known when it fails.
-/
import CodeAtlas.Text.Half

namespace CodeAtlas

/-- The encodings that files can be read and written in. -/
inductive Encoding where
  | utf8
  /-- UTF-8 with a byte order mark at its start. -/
  | utf8Marked
  | latin1
  | ascii
  /-- UTF-16 with a byte order mark; written little end first. -/
  | utf16
  | utf16Little
  | utf16Big
  deriving DecidableEq, Repr

/-- Why bytes are not the text of an encoding. -/
inductive DecodeReason where
  | invalidStart
  | invalidContinuation
  | unexpectedEnd
  | notAscii
  | truncated
  | illegalEncoding
  | illegalSurrogate
  deriving DecidableEq, Repr

/-- The first bytes that cannot be read: `count` bytes from `position` on, the first of them
`lead`. -/
structure DecodeFault where
  codec : String
  position : Nat
  count : Nat
  lead : UInt8
  reason : DecodeReason
  deriving DecidableEq, Repr

namespace Encoding

/-! ## 1. Names -/

/-- A character of a name that is not passed over. -/
def isNameChar (c : Char) : Bool := c.isAlphanum || c == '.'

/-- The runs of letters and digits of ASCII and of dots, in small letters, joined by single
underscores. -/
def canonicalName (name : Text) : Text :=
  let runs := (name.splitBy fun a b => isNameChar a == isNameChar b).filter fun run =>
    run.head?.any isNameChar
  Text.join ['_'] (runs.map fun run => run.map Char.toLower)

/-- The encodings by their proper names. -/
def properNames : List (String × Encoding) :=
  [("utf_8", .utf8), ("utf_8_sig", .utf8Marked), ("latin_1", .latin1), ("ascii", .ascii),
   ("utf_16", .utf16), ("utf_16_le", .utf16Little), ("utf_16_be", .utf16Big)]

/-- Other names of the encodings. -/
def otherNames : List (Encoding × List String) :=
  [(.utf8, ["u8", "utf", "utf8", "utf8_ucs2", "utf8_ucs4", "cp65001"]),
   (.latin1, ["8859", "cp819", "csisolatin1", "ibm819", "iso8859", "iso8859_1", "iso_8859_1",
     "iso_8859_1_1987", "iso_ir_100", "l1", "latin", "latin1"]),
   (.ascii, ["646", "ansi_x3.4_1968", "ansi_x3_4_1968", "ansi_x3.4_1986", "cp367", "csascii",
     "ibm367", "iso646_us", "iso_646.irv_1991", "iso_ir_6", "us", "us_ascii"]),
   (.utf16, ["u16", "utf16"]),
   (.utf16Little, ["unicodelittleunmarked", "utf_16le"]),
   (.utf16Big, ["unicodebigunmarked", "utf_16be"])]

/-- The encoding with another name. -/
def otherwiseNamed? (name : Text) : Option Encoding :=
  (otherNames.find? fun (_, names) => names.contains (String.ofList name)).map (·.1)

/-- The encoding that a name asks for. In names other than the proper one a dot may stand for an
underscore. -/
def named? (name : Text) : Option Encoding :=
  let wanted := canonicalName name
  otherwiseNamed? wanted <|> otherwiseNamed? (Text.swap '.' '_' wanted) <|>
    properNames.lookup (String.ofList wanted)

/-! ## 2. Decoding UTF-8 -/

/-- How far the reading of a UTF-8 character has come. -/
inductive Utf8State where
  | ready
  /-- `missing` more bytes are needed, the next between `lo` and `hi`; `seen` bytes, the first
  of them `lead`, give `value` so far. -/
  | within (lead : UInt8) (seen missing : Nat) (lo hi : UInt8) (value : Nat)

/-- What the first byte of a character announces. -/
def utf8Lead (byte : UInt8) : Option (Utf8State ⊕ Char) :=
  if byte < 0x80 then some (.inr (Char.ofNat byte.toNat))
  else if byte < 0xC2 then none
  else if byte < 0xE0 then some (.inl (.within byte 1 1 0x80 0xBF (byte.toNat - 0xC0)))
  else if byte < 0xF0 then
    let lo := if byte == 0xE0 then 0xA0 else 0x80
    let hi := if byte == 0xED then 0x9F else 0xBF
    some (.inl (.within byte 1 2 lo hi (byte.toNat - 0xE0)))
  else if byte < 0xF5 then
    let lo := if byte == 0xF0 then 0x90 else 0x80
    let hi := if byte == 0xF4 then 0x8F else 0xBF
    some (.inl (.within byte 1 3 lo hi (byte.toNat - 0xF0)))
  else none

/-- Reads UTF-8 from a state, at a position in the whole input. -/
def decodeUtf8From : Utf8State → Nat → List UInt8 → Except DecodeFault Text
  | .ready, _, [] => .ok []
  | .within lead seen _ _ _ _, position, [] =>
    .error ⟨"utf-8", position - seen, seen, lead, .unexpectedEnd⟩
  | .ready, position, byte :: rest =>
    match utf8Lead byte with
    | none => .error ⟨"utf-8", position, 1, byte, .invalidStart⟩
    | some (.inr c) => (decodeUtf8From .ready (position + 1) rest).map (c :: ·)
    | some (.inl state) => decodeUtf8From state (position + 1) rest
  | .within lead seen missing lo hi value, position, byte :: rest =>
    if lo ≤ byte && byte ≤ hi then
      let next := value * 64 + (byte.toNat - 0x80)
      match missing with
      | 0 | 1 => (decodeUtf8From .ready (position + 1) rest).map (Char.ofNat next :: ·)
      | more + 2 =>
        decodeUtf8From (.within lead (seen + 1) (more + 1) 0x80 0xBF next) (position + 1) rest
    else .error ⟨"utf-8", position - seen, seen, lead, .invalidContinuation⟩

/-- Reads UTF-8. -/
def decodeUtf8 (bytes : List UInt8) : Except DecodeFault Text := decodeUtf8From .ready 0 bytes

/-! ## 3. Decoding the other encodings -/

/-- Reads bytes that stand for the character of their own number. -/
def decodeAsciiFrom : Nat → List UInt8 → Except DecodeFault Text
  | _, [] => .ok []
  | position, byte :: rest =>
    if byte < 0x80 then
      (decodeAsciiFrom (position + 1) rest).map (Char.ofNat byte.toNat :: ·)
    else .error ⟨"ascii", position, 1, byte, .notAscii⟩

/-- The number that two bytes of UTF-16 spell. -/
def unit16 (bigEnd : Bool) (a b : UInt8) : Nat :=
  if bigEnd then a.toNat * 256 + b.toNat else b.toNat * 256 + a.toNat

/-- Reads UTF-16 without a byte order mark, at a position in the whole input. -/
def decodeUtf16From (bigEnd : Bool) : Nat → List UInt8 → Except DecodeFault Text
  | _, [] => .ok []
  | position, [a] => .error ⟨codec, position, 1, a, .truncated⟩
  | position, a :: b :: rest =>
    let first := unit16 bigEnd a b
    if first < 0xD800 || 0xE000 ≤ first then
      (decodeUtf16From bigEnd (position + 2) rest).map (Char.ofNat first :: ·)
    else if 0xDC00 ≤ first then .error ⟨codec, position, 2, a, .illegalEncoding⟩
    else
      match rest with
      | c :: d :: more =>
        let second := unit16 bigEnd c d
        if 0xDC00 ≤ second && second < 0xE000 then
          let code := 0x10000 + (first - 0xD800) * 0x400 + (second - 0xDC00)
          (decodeUtf16From bigEnd (position + 4) more).map (Char.ofNat code :: ·)
        else .error ⟨codec, position, 2, a, .illegalSurrogate⟩
      | short => .error ⟨codec, position, 2 + short.length, a, .unexpectedEnd⟩
where
  codec : String := if bigEnd then "utf-16-be" else "utf-16-le"

/-- Why a file is not a text. UTF-16 whose byte order is to be found out needs a mark. -/
inductive TextFault where
  | decode (fault : DecodeFault)
  | noByteOrderMark
  deriving DecidableEq, Repr

/-- Reads UTF-16 whose first two bytes tell the byte order. -/
def decodeUtf16 : List UInt8 → Except TextFault Text
  | 0xFF :: 0xFE :: rest => (decodeUtf16From false 2 rest).mapError .decode
  | 0xFE :: 0xFF :: rest => (decodeUtf16From true 2 rest).mapError .decode
  | bytes =>
    match decodeUtf16From false 0 bytes with
    | .error fault => .error (.decode fault)
    | .ok [] => .ok []
    | .ok (_ :: _) => .error .noByteOrderMark

/-- The byte order mark in UTF-8. -/
def utf8Mark : List UInt8 := [0xEF, 0xBB, 0xBF]

/-- Reads bytes. With `utf8Marked`, positions count from the end of the mark, and a file that is
only the beginning of a mark is empty. -/
def decode : Encoding → List UInt8 → Except TextFault Text
  | .utf8, bytes => (decodeUtf8 bytes).mapError .decode
  | .utf8Marked, bytes =>
    if bytes.isPrefixOf utf8Mark then .ok []
    else if utf8Mark.isPrefixOf bytes then (decodeUtf8 (bytes.drop 3)).mapError .decode
    else (decodeUtf8 bytes).mapError .decode
  | .latin1, bytes => .ok (bytes.map fun byte => Char.ofNat byte.toNat)
  | .ascii, bytes => (decodeAsciiFrom 0 bytes).mapError .decode
  | .utf16, bytes => decodeUtf16 bytes
  | .utf16Little, bytes => (decodeUtf16From false 0 bytes).mapError .decode
  | .utf16Big, bytes => (decodeUtf16From true 0 bytes).mapError .decode

/-! ## 4. Encoding -/

/-- The decimal character reference of a number, in ASCII. -/
def reference (code : Nat) : List UInt8 :=
  ("&#".toList ++ Text.ofNat code ++ [';']).map fun d => d.toNat.toUInt8

/-- A character as one byte, if its number is below `limit`, and as a reference otherwise. -/
def narrow (limit : Nat) (c : Char) : List UInt8 :=
  if c.toNat < limit then [c.toNat.toUInt8] else reference c.toNat

/-- The two bytes of a UTF-16 unit. -/
def bytes16 (bigEnd : Bool) (unit : Nat) : List UInt8 :=
  let high := (unit / 256).toUInt8
  let low := (unit % 256).toUInt8
  if bigEnd then [high, low] else [low, high]

/-- A character in UTF-16. -/
def wide (bigEnd : Bool) (c : Char) : List UInt8 :=
  if c.toNat < 0x10000 then bytes16 bigEnd c.toNat
  else
    let offset := c.toNat - 0x10000
    bytes16 bigEnd (0xD800 + offset / 0x400) ++ bytes16 bigEnd (0xDC00 + offset % 0x400)

/-- Writes a text, given how characters are written. -/
def encodeWith (write : Char → List UInt8) (text : Text) : List UInt8 :=
  (Text.characters text).flatMap fun
    | [c] => write c
    | half => reference (Text.code half)

/-- Writes a text. -/
def encode : Encoding → Text → List UInt8
  | .utf8, text => encodeWith String.utf8EncodeChar text
  | .utf8Marked, text => utf8Mark ++ encodeWith String.utf8EncodeChar text
  | .latin1, text => encodeWith (narrow 256) text
  | .ascii, text => encodeWith (narrow 128) text
  | .utf16, text => [0xFF, 0xFE] ++ encodeWith (wide false) text
  | .utf16Little, text => encodeWith (wide false) text
  | .utf16Big, text => encodeWith (wide true) text

end Encoding

/-! ## 5. Other encodings -/

/-- Why an encoding that is not spelled out here does not do its work. -/
inductive CodecFault where
  /-- Bytes are not those of a text. -/
  | undecodable (why : Text)
  /-- It is not made for texts. -/
  | notForTexts (why : Text)
  | other (why : Text)
  deriving DecidableEq, Repr

/-- The wording of a fault. -/
def CodecFault.message : CodecFault → Text
  | .undecodable why | .notForTexts why | .other why => why

/-- An encoding that is not spelled out here. -/
structure Codec where
  /-- The text of all bytes of a file. -/
  decode : List UInt8 → Except CodecFault Text
  /-- The bytes of a text, with references in the place of characters that the encoding lacks. -/
  encode : Text → Except CodecFault (List UInt8)

/-! ## 6. Messages and line breaks -/

/-- The wording of a reason. -/
def DecodeReason.message : DecodeReason → Text
  | .invalidStart => "invalid start byte"
  | .invalidContinuation => "invalid continuation byte"
  | .unexpectedEnd => "unexpected end of data"
  | .notAscii => "ordinal not in range(128)"
  | .truncated => "truncated data"
  | .illegalEncoding => "illegal encoding"
  | .illegalSurrogate => "illegal UTF-16 surrogate"

/-- A byte as two hexadecimal digits. -/
def hexByte (byte : UInt8) : Text :=
  [Nat.digitChar (byte.toNat / 16), Nat.digitChar (byte.toNat % 16)]

/-- The wording of a fault: one byte is shown itself, several by their positions. -/
def DecodeFault.message (fault : DecodeFault) : Text :=
  "'" ++ fault.codec.toList ++ "' codec can't decode " ++
    (if fault.count == 1 then
      "byte 0x" ++ hexByte fault.lead ++ " in position " ++ Text.ofNat fault.position
    else
      "bytes in position " ++ Text.ofNat fault.position ++ "-" ++
        Text.ofNat (fault.position + fault.count - 1)) ++
    ": " ++ fault.reason.message

/-- Every line break as a line feed: a carriage return counts as one, also before a line feed. -/
def Text.unifyBreaks : Text → Text
  | '\r' :: '\n' :: rest => '\n' :: unifyBreaks rest
  | '\r' :: rest => '\n' :: unifyBreaks rest
  | c :: rest => c :: unifyBreaks rest
  | [] => []

end CodeAtlas
