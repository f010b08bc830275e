/-
  File:      CodeAtlas/Text/Basic.lean
  Subject:   Texts as lists of characters: cutting, replacing, joining, sorting.

  A text is the list of its characters, so that offsets count characters and
  every function below is a recursion on the list.

  * `cut?`: the parts before and after the first occurrence of a pattern.
  * `cutLast?`: the parts before and after the last occurrence of a character.
  * `replaceAll`: replaces every occurrence, from left to right, without overlap.
  * `sorted`: ascending order by code points.
-/
namespace CodeAtlas

/-- A text is the list of its characters. -/
abbrev Text := List Char

/-- A string literal stands for the list of its characters. -/
instance : Coe String Text := ⟨String.toList⟩

namespace Text

/-! ## 1. Searching and cutting -/

/-- The parts before and after the first occurrence of `pattern`. -/
def cut? (pattern : Text) : Text → Option (Text × Text)
  | [] => if pattern.isEmpty then some ([], []) else none
  | c :: rest =>
    if pattern.isPrefixOf (c :: rest) then some ([], (c :: rest).drop pattern.length)
    else (cut? pattern rest).map fun (before, after) => (c :: before, after)

/-- Whether `pattern` occurs in a text. -/
def hasPart (pattern text : Text) : Bool := (cut? pattern text).isSome

/-- The parts before and after the last occurrence of `mark`. -/
def cutLast? (mark : Char) (text : Text) : Option (Text × Text) :=
  match text.reverse.span (· != mark) with
  | (_, []) => none
  | (after, _ :: before) => some (before.reverse, after.reverse)

/-- The part after the last occurrence of `mark`, or all of a text without it. -/
def afterLast (mark : Char) (text : Text) : Text :=
  match cutLast? mark text with
  | some (_, after) => after
  | none => text

/-- Drops characters from the end while they satisfy `p`. -/
def dropWhileRight (p : Char → Bool) (text : Text) : Text :=
  (text.reverse.dropWhile p).reverse

/-! ## 2. Replacing and joining -/

/-- `replaceFrom old new skip text` leaves out the next `skip` characters, which belong to
an occurrence already replaced, and replaces the occurrences of `old` after them. -/
def replaceFrom (old new : Text) : Nat → Text → Text
  | _, [] => []
  | skip + 1, _ :: rest => replaceFrom old new skip rest
  | 0, c :: rest =>
    if old.isPrefixOf (c :: rest) then new ++ replaceFrom old new (old.length - 1) rest
    else c :: replaceFrom old new 0 rest

/-- Replaces every occurrence of a non-empty `old` by `new`, from left to right and without
overlap. -/
def replaceAll (old new text : Text) : Text := replaceFrom old new 0 text

/-- Replaces every character `old` by `new`. -/
def swap (old new : Char) (text : Text) : Text :=
  text.map fun c => if c == old then new else c

/-- Joins parts with `mark` between them. -/
def join (mark : Text) (parts : List Text) : Text := List.intercalate mark parts

/-- A text repeated `n` times. -/
def times (n : Nat) (text : Text) : Text := (List.replicate n text).flatten

/-! ## 3. Numbers and order -/

/-- The decimal digits of a natural number. -/
def ofNat (n : Nat) : Text := Nat.toDigits 10 n

/-- The decimal digits of an integer, with a sign if it is negative. -/
def ofInt : Int → Text
  | .ofNat n => ofNat n
  | .negSucc n => '-' :: ofNat (n + 1)

/-- Ascending order by code points; a text comes after its own starts. -/
def le : Text → Text → Bool
  | [], _ => true
  | _ :: _, [] => false
  | a :: as, b :: bs => if a == b then le as bs else decide (a.toNat < b.toNat)

/-- Texts in ascending order by code points. -/
def sorted (texts : List Text) : List Text := texts.mergeSort le

/-- Whether a character lies in one of the closed ranges of code points. -/
def inRanges (ranges : List (Nat × Nat)) (c : Char) : Bool :=
  ranges.any fun (lo, hi) => lo ≤ c.toNat && c.toNat ≤ hi

end Text

end CodeAtlas
