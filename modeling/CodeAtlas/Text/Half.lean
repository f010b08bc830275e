/-
  File:      CodeAtlas/Text/Half.lean
  Subject:   Halves of characters.

  The numbers from 0xD800 to 0xDFFF are no characters; two of them make one in
  UTF-16. An escape may name such a half all the same. A text holds it as two
  characters: a mark that never stands in texts that are exchanged, and a character
  for private use that tells which half it is.

  * `ofCode`: the text of a number, whether a character or a half has it.
  * `characters`: the characters and halves of a text, one after another.
  * `codes`: their numbers.
  * `HalfFault`: halves where bytes are needed. There are none for them.
-/
import CodeAtlas.Text.Basic

namespace CodeAtlas

namespace Text

/-- Whether a number is that of a half. -/
def isHalf (code : Nat) : Bool := 0xD800 ≤ code && code < 0xE000

/-- What marks a half. -/
def halfMark : Char := Char.ofNat 0x1FFFE

/-- How far the character that stands for a half lies above its number. -/
def halfShift : Nat := 0x800

/-- The text of a number. -/
def ofCode (code : Nat) : Text :=
  if isHalf code then [halfMark, Char.ofNat (code + halfShift)] else [Char.ofNat code]

/-- The half that two characters stand for. -/
def half? (mark c : Char) : Option Nat :=
  if mark == halfMark && isHalf (c.toNat - halfShift) then some (c.toNat - halfShift) else none

/-- The characters and halves of a text, each as a text of its own. -/
def characters : Text → List Text
  | c :: d :: rest =>
    if (half? c d).isSome then [c, d] :: characters rest else [c] :: characters (d :: rest)
  | [c] => [[c]]
  | [] => []

/-- The number of a character or half. -/
def code : Text → Nat
  | [mark, c] => (half? mark c).getD mark.toNat
  | c :: _ => c.toNat
  | [] => 0

/-- The numbers of the characters and halves of a text. -/
def codes (text : Text) : List Nat := (characters text).map code

end Text

/-- Halves that stand next to each other where a text is needed in bytes: the positions of the
first and the last of them, and the number of the first. -/
structure HalfFault where
  first : Nat
  last : Nat
  code : Nat
  deriving DecidableEq, Repr

namespace HalfFault

/-- The first halves in numbers that are not `allowed`, counted from a position on. -/
def find? (allowed : Nat → Bool) (position : Nat) : List Nat → Option HalfFault
  | [] => none
  | code :: rest =>
    if Text.isHalf code && !allowed code then
      some ⟨position, position + (rest.takeWhile Text.isHalf).length, code⟩
    else find? allowed (position + 1) rest

/-- The first halves in a text. -/
def inText? (text : Text) : Option HalfFault := find? (fun _ => false) 0 (Text.codes text)

/-- Whether a half stands for a byte that is no text. -/
def isByte (code : Nat) : Bool := 0xDC80 ≤ code && code ≤ 0xDCFF

/-- The first halves in a file name that no byte is for. -/
def inFileName? (text : Text) : Option HalfFault := find? isByte 0 (Text.codes text)

/-- The wording of the fault. -/
def message (fault : HalfFault) : Text :=
  "'utf-8' codec can't encode character" ++
    (if fault.first == fault.last then
      " '\\u" ++ Nat.toDigits 16 fault.code ++ "' in position " ++ Text.ofNat fault.first
    else
      "s in position " ++ Text.ofNat fault.first ++ "-" ++ Text.ofNat fault.last) ++
    ": surrogates not allowed"

end HalfFault

end CodeAtlas
