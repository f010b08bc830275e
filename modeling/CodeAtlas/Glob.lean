/-
  File:      CodeAtlas/Glob.lean
  Subject:   Patterns for slash-separated paths.

  A pattern is written segment by segment: `*` stands for any part of a segment,
  `?` for one character of it, and a segment `**` for any number of segments. It
  is kept as one flat list of pieces (`Glob`), in which the slashes are pieces
  of their own.

  * `Glob.ofText`: reads a pattern. Blanks around it and slashes before it are
    dropped, backslashes are slashes, and a final slash means everything below.
  * `Glob.accepts`: whether the pieces match a whole path.
-/
import CodeAtlas.Text.Blank

namespace CodeAtlas

/-- A piece of a pattern. -/
inductive Glob.Piece where
  /-- A character that stands for itself. -/
  | char (c : Char)
  /-- Any one character but a slash. -/
  | one
  /-- Any characters but slashes. -/
  | run
  /-- Any number of leading segments, each with its slash. -/
  | folders
  /-- Any characters, slashes among them, but no line feed. -/
  | all
  deriving DecidableEq, Repr

/-- A pattern as the list of its pieces. -/
abbrev Glob := List Glob.Piece

namespace Glob

/-! ## 1. Reading patterns -/

/-- The pattern as it is split at its slashes. -/
def normalize (pattern : Text) : Text :=
  let slashed := (Text.swap '\\' '/' (Text.trim pattern)).dropWhile (· == '/')
  if slashed.getLast? == some '/' then slashed ++ ['*', '*'] else slashed

/-- The piece of one character of a segment. -/
def pieceOf (c : Char) : Piece :=
  if c == '*' then .run else if c == '?' then .one else .char c

/-- The pieces of segments. -/
def ofSegments : List Text → Glob
  | [] => []
  | [segment] => if segment == ['*', '*'] then [.all] else segment.map pieceOf
  | segment :: rest =>
    if segment == ['*', '*'] then .folders :: ofSegments rest
    else segment.map pieceOf ++ .char '/' :: ofSegments rest

/-- Reads a pattern. -/
def ofText (pattern : Text) : Glob := ofSegments ((normalize pattern).splitOn '/')

/-! ## 2. Matching -/

/-- What follows the first slash. -/
def afterSlash? : Text → Option Text
  | [] => none
  | c :: rest => if c == '/' then some rest else afterSlash? rest

theorem afterSlash?_length {path rest : Text} (h : afterSlash? path = some rest) :
    rest.length < path.length := by
  induction path with
  | nil => simp [afterSlash?] at h
  | cons c path ih =>
    unfold afterSlash? at h
    split at h
    · cases h; simp
    · exact Nat.lt_succ_of_lt (ih h)

/-- Whether the pieces match all of a path. -/
def accepts : Glob → Text → Bool
  | [], path => path.isEmpty
  | .char c :: pieces, d :: path => c == d && accepts pieces path
  | .char _ :: _, [] => false
  | .one :: pieces, d :: path => d != '/' && accepts pieces path
  | .one :: _, [] => false
  | .run :: pieces, [] => accepts pieces []
  | .run :: pieces, d :: path =>
    accepts pieces (d :: path) || (d != '/' && accepts (.run :: pieces) path)
  | .folders :: pieces, path =>
    accepts pieces path ||
      match _h : afterSlash? path with
      | some rest => accepts (.folders :: pieces) rest
      | none => false
  | .all :: pieces, [] => accepts pieces []
  | .all :: pieces, d :: path =>
    accepts pieces (d :: path) || (d != '\n' && accepts (.all :: pieces) path)
termination_by pieces path => (pieces.length, path.length)
decreasing_by
  all_goals simp_wf
  all_goals first
    | exact Prod.Lex.left _ _ (Nat.lt_succ_self _)
    | exact Prod.Lex.right _ (Nat.lt_succ_self _)
    | exact Prod.Lex.right _ (afterSlash?_length ‹_›)

/-- Whether a pattern matches a path, in which backslashes count as slashes. -/
def accepted (glob : Glob) (path : Text) : Bool := glob.accepts (Text.swap '\\' '/' path)

end Glob

end CodeAtlas
