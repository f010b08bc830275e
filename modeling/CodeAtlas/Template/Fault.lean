/-
  File:      CodeAtlas/Template/Fault.lean
  Subject:   Why a template cannot be filled in.

  * `Complaint`: what is wrong with a value that does not fit where it is used.
  * `TooDeep`: a template that is nested deeper than templates can be carried out.
  * `Fault`: a fault of the template itself, a value that does not fit, or a
    template that cannot be had.
-/
import CodeAtlas.Text.Encoding

namespace CodeAtlas.Template

/-- What is wrong with a value. -/
inductive Complaint where
  /-- It is of the wrong kind. -/
  | type
  /-- It is of the right kind, but not one that will do. -/
  | value
  | attribute
  /-- It is no key of a table. -/
  | key
  | division
  /-- It is too large. -/
  | overflow
  deriving DecidableEq, Repr

/-- What may be nested only so deep. -/
inductive Limit where
  | indentation
  | loops
  | brackets
  deriving DecidableEq, Repr

/-- The wording of a limit. -/
def Limit.message : Limit → Text
  | .indentation => "too many levels of indentation"
  | .loops => "too many statically nested blocks"
  | .brackets => "too many nested parentheses"

/-- A template that exceeds a limit, by its file name, and the line of its program where it
does. -/
structure TooDeep where
  limit : Limit
  file : Text
  line : Nat
  deriving DecidableEq, Repr

/-- The wording of an excess. -/
def TooDeep.message (excess : TooDeep) : Text :=
  excess.limit.message ++ " (" ++ excess.file ++ ", line " ++ Text.ofNat excess.line ++ ")"

/-- Why a template cannot be filled in. -/
inductive Fault where
  /-- A part of an undefined value is asked for, or a template misses another one. -/
  | failed (why : Text)
  | unfit (complaint : Complaint) (message : Text)
  | encoding (fault : DecodeFault)
  | tooDeep (excess : TooDeep)
  deriving DecidableEq, Repr

/-- A value of the wrong kind. -/
def Fault.type (message : Text) : Fault := .unfit .type message

end CodeAtlas.Template
