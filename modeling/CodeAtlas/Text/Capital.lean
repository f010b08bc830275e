/-
  File:      CodeAtlas/Text/Capital.lean
  Subject:   Capital and small letters of any script.

  A letter with a small form of its own is a capital, unless it only starts a word
  in capital: those that are two letters in one, and those with a letter written
  below. All other letters that have a case are small.

  * `isCapital`, `isSmall`: the two cases.
  * `isAllSmall`, `isAllCapital`: texts with letters of one case only.

  The tables hold closed ranges of code points in ascending order (version 14 of
  Unicode).
-/
import CodeAtlas.Text.Lower

namespace CodeAtlas.Text

/-- The closed ranges of letters that start a word in capital and go on small. -/
def titleRanges : List (Nat × Nat) :=
  [(0x1C5, 0x1C5), (0x1C8, 0x1C8), (0x1CB, 0x1CB), (0x1F2, 0x1F2), (0x1F88, 0x1F8F),
   (0x1F98, 0x1F9F), (0x1FA8, 0x1FAF), (0x1FBC, 0x1FBC), (0x1FCC, 0x1FCC), (0x1FFC, 0x1FFC)]

/-- The closed ranges of capitals that have no small form. -/
def loneCapitalRanges : List (Nat × Nat) :=
  [(0x3D2, 0x3D4), (0x2102, 0x2102), (0x2107, 0x2107), (0x210B, 0x210D), (0x2110, 0x2112),
   (0x2115, 0x2115), (0x2119, 0x211D), (0x2124, 0x2124), (0x2128, 0x2128), (0x212C, 0x212D),
   (0x2130, 0x2131), (0x2133, 0x2133), (0x213E, 0x213F), (0x2145, 0x2145), (0x1D400, 0x1D419),
   (0x1D434, 0x1D44D), (0x1D468, 0x1D481), (0x1D49C, 0x1D49C), (0x1D49E, 0x1D49F),
   (0x1D4A2, 0x1D4A2), (0x1D4A5, 0x1D4A6), (0x1D4A9, 0x1D4AC), (0x1D4AE, 0x1D4B5),
   (0x1D4D0, 0x1D4E9), (0x1D504, 0x1D505), (0x1D507, 0x1D50A), (0x1D50D, 0x1D514),
   (0x1D516, 0x1D51C), (0x1D538, 0x1D539), (0x1D53B, 0x1D53E), (0x1D540, 0x1D544),
   (0x1D546, 0x1D546), (0x1D54A, 0x1D550), (0x1D56C, 0x1D585), (0x1D5A0, 0x1D5B9),
   (0x1D5D4, 0x1D5ED), (0x1D608, 0x1D621), (0x1D63C, 0x1D655), (0x1D670, 0x1D689),
   (0x1D6A8, 0x1D6C0), (0x1D6E2, 0x1D6FA), (0x1D71C, 0x1D734), (0x1D756, 0x1D76E),
   (0x1D790, 0x1D7A8), (0x1D7CA, 0x1D7CA), (0x1F130, 0x1F149), (0x1F150, 0x1F169),
   (0x1F170, 0x1F189)]

/-- The closed ranges of small letters that the end of a word does not see. -/
def smallSignRanges : List (Nat × Nat) :=
  [(0x2B0, 0x2B8), (0x2C0, 0x2C1), (0x2E0, 0x2E4), (0x345, 0x345), (0x37A, 0x37A),
   (0x1D2C, 0x1D6A), (0x1D78, 0x1D78), (0x1D9B, 0x1DBF), (0x2071, 0x2071), (0x207F, 0x207F),
   (0x2090, 0x209C), (0x2C7C, 0x2C7D), (0xA69C, 0xA69D), (0xA770, 0xA770), (0xA7F8, 0xA7F9),
   (0xAB5C, 0xAB5F), (0x10780, 0x10780), (0x10783, 0x10785), (0x10787, 0x107B0),
   (0x107B2, 0x107BA)]

/-- Whether a letter starts a word in capital and goes on small. -/
def isTitleLetter (c : Char) : Bool := inRanges titleRanges c

/-- Whether a character is a capital. -/
def isCapital (c : Char) : Bool :=
  (lowerChar c != [c] && !isTitleLetter c) || inRanges loneCapitalRanges c

/-- Whether a character is a small letter. -/
def isSmall (c : Char) : Bool :=
  (isCased c && !isCapital c && !isTitleLetter c) || inRanges smallSignRanges c

/-- Whether a text has a small letter, and no other that has a case. -/
def isAllSmall (text : Text) : Bool :=
  text.any isSmall && !text.any fun c => isCapital c || isTitleLetter c

/-- Whether a text has a capital, and no other letter that has a case. -/
def isAllCapital (text : Text) : Bool :=
  text.any isCapital && !text.any fun c => isSmall c || isTitleLetter c

end CodeAtlas.Text
