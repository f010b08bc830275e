/-
  File:      CodeAtlas/Markup/Words.lean
  Subject:   The words of a line and their replacement in place.

  Words are the longest runs without blanks, round brackets, opening square
  brackets and braces. A line is edited from its end to its start, so that a
  replacement never moves a word that is still to be replaced.

  * `words`: the words of a line with their offsets.
  * `Edit`, `applyEdits`: replacements of parts of a line.
  * `replaceWords`: replaces every word equal to a given one.
-/
import CodeAtlas.Text.Blank

namespace CodeAtlas.Markup

/-- A word and its offset in the line. -/
structure Word where
  text : Text
  start : Nat
  deriving DecidableEq, Repr

/-- The offset after the word. -/
def Word.stop (word : Word) : Nat := word.start + word.text.length

/-- Characters that end a word. -/
def isBreaker (c : Char) : Bool :=
  Text.isBlank c || c == '(' || c == ')' || c == '[' || c == '{' || c == '}'

/-- The words of a text that starts at an offset. -/
def wordsFrom (start : Nat) (text : Text) : List Word :=
  match text with
  | [] => []
  | c :: rest =>
    if isBreaker c then wordsFrom (start + 1) rest
    else
      let word := c :: rest.takeWhile (!isBreaker ·)
      ⟨word, start⟩ :: wordsFrom (start + word.length) (rest.dropWhile (!isBreaker ·))
termination_by text.length
decreasing_by
  all_goals simp only [List.length_cons]
  · exact Nat.lt_succ_self _
  · exact Nat.lt_succ_of_le (List.dropWhile_suffix _).length_le

/-- The words of a line in ascending order of their offsets. -/
def words (line : Text) : List Word := wordsFrom 0 line

/-- A replacement of the characters from `start` up to `stop`. -/
structure Edit where
  start : Nat
  stop : Nat
  text : Text
  deriving DecidableEq, Repr

/-- Makes one replacement. -/
def Edit.apply (edit : Edit) (line : Text) : Text :=
  line.take edit.start ++ edit.text ++ line.drop edit.stop

/-- Makes replacements that are given in ascending order, the last of them first. -/
def applyEdits (edits : List Edit) (line : Text) : Text := edits.foldr Edit.apply line

/-- Replaces every word equal to `wanted`. -/
def replaceWords (line wanted replacement : Text) : Text :=
  applyEdits (((words line).filter (·.text == wanted)).map fun word =>
    ⟨word.start, word.stop, replacement⟩) line

end CodeAtlas.Markup
