/-
  File:      CodeAtlas/Template/Generation.lean
  Subject:   Which generation of templates fits a version of the API documentation tool.

  * `versionText?`, `versionNumbers`: the first dotted number of a text.
  * `Generation.ofVersion`: the newest generation whose version is reached.
  * `ToolAnswer.version`: the version that an installed tool reports.
-/
import CodeAtlas.Failure
import CodeAtlas.Log

namespace CodeAtlas

/-! ## 1. Version numbers -/

/-- The rest of a dotted number: a dot belongs to it if a digit follows. -/
def numberRest : Text → Text
  | [] => []
  | '.' :: d :: rest => if Text.isDecimal d then '.' :: d :: numberRest rest else []
  | c :: rest => if Text.isDecimal c then c :: numberRest rest else []

/-- The first dotted number of a text. Digits of any script count. -/
def versionText? : Text → Option Text
  | [] => none
  | c :: rest => if Text.isDecimal c then some (c :: numberRest rest) else versionText? rest

/-- The value of a run of decimal digits, or their number if they are too many. -/
def decimalNumber (digits : Text) : Except Nat Nat :=
  if Decimal.digitLimit < digits.length then .error digits.length
  else .ok (digits.foldl (fun n c => n * 10 + (Text.decimalValue? c).getD 0) 0)

/-- The first dotted number of a text as the list of its parts; empty if there is none. A part
with too many digits is a fault, which tells their number. -/
def versionNumbers (text : Text) : Except Nat (List Nat) :=
  match versionText? text with
  | none => .ok []
  | some number => (number.splitOn '.').mapM decimalNumber

/-! ## 2. Generations -/

/-- The generation that all others fall back to. -/
def baseGeneration : Text := "base"

/-- The generations from the newest on, each with the version it starts at. -/
def generations : List (List Nat × Text) :=
  [([1, 8], "jdk8"), ([1, 7], "jdk7"), ([1, 4], "jdk4")]

/-- Whether a version reaches another, compared part by part; a part that is missing comes
before any other. -/
def reaches : (version start : List Nat) → Bool
  | _, [] => true
  | [], _ :: _ => false
  | v :: version, s :: start => if v == s then reaches version start else s < v

/-- The newest generation that a version reaches. -/
def generation? (version : List Nat) : Option Text :=
  (generations.find? fun (start, _) => reaches version start).map (·.2)

/-- The generation for a version, and a warning if none fits. -/
def generationFor (version : Option Text) : Except Nat (Text × List Record) := do
  match generation? (← versionNumbers (version.getD [])) with
  | some name => return (name, [])
  | none =>
    return (baseGeneration, [Stage.templates.record .warning
      ("Unsupported javadoc version '" ++ version.getD "None" ++ "', using the " ++
        baseGeneration ++ " templates")])

/-! ## 3. Detection -/

/-- What asking the installed tool for its version comes to. -/
inductive ToolAnswer where
  /-- The tool cannot be run, for the given reason. -/
  | failed (why : Text)
  /-- The tool ended with an exit code and two outputs. -/
  | finished (code : Int) (output errors : Text)
  /-- Asking is broken off, as it is by outputs that are no texts. A cause can be one of the
  operating system. -/
  | brokenOff (ofSystem : Bool) (why : Text)

/-- The version that is assumed when the tool reports none. -/
def assumedVersion : Text := "1.8"

/-- The version that the tool reports, on either output, and a record if it reports none. -/
def ToolAnswer.version : ToolAnswer → Except Failure (Text × List Record)
  | .failed why =>
    .ok (assumedVersion,
      [Stage.templates.record .debug ("javadoc version detection failed: " ++ why)])
  | .finished code output errors =>
    match if code == 0 then versionText? (output ++ ['\n'] ++ errors) else none with
    | some version => .ok (version, [])
    | none =>
      .ok (assumedVersion,
        [Stage.templates.record .debug
          ("javadoc reported no usable version, assuming " ++ assumedVersion)])
  | .brokenOff ofSystem why => .error (.brokenOff ofSystem why)

end CodeAtlas
