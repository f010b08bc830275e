/-
  File:      CodeAtlas/Text/Blank.lean
  Subject:   Blank characters, and texts without the blanks at their ends.

  * `isBlank`: white space of any script. The zero-width space, the Mongolian
    vowel separator and the byte order mark are no blanks.
  * `trim`, `trimRight`: a text without the blanks at its ends.
-/
import CodeAtlas.Text.Basic

namespace CodeAtlas.Text

/-- The closed ranges of blanks from U+0080 on. -/
def blankRanges : List (Nat × Nat) :=
  [(0x85, 0x85), (0xA0, 0xA0), (0x1680, 0x1680), (0x2000, 0x200A), (0x2028, 0x2029),
   (0x202F, 0x202F), (0x205F, 0x205F), (0x3000, 0x3000)]

/-- White space: tab to carriage return, the four separators U+001C to U+001F, the space,
and the blanks of `blankRanges`. -/
def isBlank (c : Char) : Bool :=
  if c.toNat < 128 then
    c == ' ' || (9 ≤ c.toNat && c.toNat ≤ 13) || (28 ≤ c.toNat && c.toNat ≤ 31)
  else inRanges blankRanges c

/-- Drops the blanks at the end. -/
def trimRight (text : Text) : Text := dropWhileRight isBlank text

/-- Drops the blanks at both ends. -/
def trim (text : Text) : Text := trimRight (text.dropWhile isBlank)

end CodeAtlas.Text
