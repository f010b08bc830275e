/-
  File:      CodeAtlas/Command/Request.lean
  Subject:   What a command line asks for.

  The switches of the program stand before the command, those of the command
  after it.

  * `Request`: the command with everything it was told.
  * `Request.parse`: reads a command line.
  * `UsageError.text`: what is shown for one that is not understood.
-/
import CodeAtlas.Command.Arguments
import CodeAtlas.Log

namespace CodeAtlas.Command

/-- The commands. -/
inductive Task where
  /-- Writes the pages. -/
  | generate
  /-- Lists packages and types. -/
  | scan
  deriving DecidableEq, Repr

/-- The word for a command. -/
def Task.word : Task → Text
  | .generate => "generate"
  | .scan => "scan"

/-- All commands. -/
def tasks : List Task := [.generate, .scan]

/-- A command with everything it was told. -/
structure Request where
  task : Task
  verbose : Bool
  logFile : Option Text
  /-- The project, or its configuration file. -/
  path : Text
  sourceFolders : List Text
  includes : List Text
  excludes : List Text
  destination : Option Text
  apiVersion : Option Text
  templateFolder : Option Text
  deriving DecidableEq, Repr

/-- A command line that is not understood, or a call for help; `program` is the part of the
command line that speaks. -/
structure UsageError where
  program : Text
  stop : Stop
  deriving DecidableEq, Repr

/-! ## 1. Switches -/

/-- The switch for help. -/
def helpSwitch : Switch := ⟨.help, ["-h", "--help"], false⟩

/-- The switch for more reports. -/
def verboseSwitch : Switch := ⟨.verbose, ["-v", "--verbose"], false⟩

/-- The switches of the program. -/
def programSwitches : List Switch :=
  [helpSwitch, verboseSwitch, ⟨.logFile, ["--log-file"], true⟩]

/-- The switches of every command. -/
def sourceSwitches : List Switch :=
  [helpSwitch, verboseSwitch, ⟨.sourceFolder, ["-s", "--source-dir"], true⟩,
   ⟨.inclusion, ["--include"], true⟩, ⟨.exclusion, ["--exclude"], true⟩]

/-- The switches of a command. -/
def Task.switches : Task → List Switch
  | .scan => sourceSwitches
  | .generate =>
    sourceSwitches ++
      [⟨.destination, ["-d", "--destination"], true⟩,
       ⟨.apiVersion, ["--javadoc-version"], true⟩,
       ⟨.templateFolder, ["--template-dir"], true⟩]

/-! ## 2. Reading -/

/-- The values given for a role, in order. -/
def valuesOf (role : Role) (given : List (Role × Text)) : List Text :=
  (given.filter (·.1 == role)).map (·.2)

/-- The last value given for a role. -/
def lastOf (role : Role) (given : List (Role × Text)) : Option Text :=
  (valuesOf role given).getLast?

/-- The request of sorted arguments of the program and of the command. -/
def Request.ofArguments (task : Task) (outer inner : Arguments) : Request where
  task := task
  verbose := (outer.given ++ inner.given).any (·.1 == .verbose)
  logFile := lastOf .logFile outer.given
  path := (inner.operand.bind operandWord).getD ['.']
  sourceFolders := valuesOf .sourceFolder inner.given
  includes := valuesOf .inclusion inner.given
  excludes := valuesOf .exclusion inner.given
  destination := lastOf .destination inner.given
  apiVersion := lastOf .apiVersion inner.given
  templateFolder := lastOf .templateFolder inner.given

/-- Reads a command line. -/
def Request.parse (arguments : List Text) : Except UsageError Request := do
  let program := loggerRoot
  let outer ← (Arguments.sort programSwitches .rest arguments).mapError (⟨program, ·⟩)
  match outer.operand with
  | some (word :: rest) =>
    match tasks.find? (·.word == word) with
    | none => .error ⟨program, .fault (.unknownCommand word (tasks.map Task.word))⟩
    | some task =>
      let inner ← (Arguments.sort task.switches .one rest).mapError
        (⟨program ++ ' ' :: task.word, ·⟩)
      match outer.extras ++ inner.extras with
      | [] => .ok (Request.ofArguments task outer inner)
      | extras => .error ⟨program, .fault (.unrecognized extras)⟩
  | _ => .error ⟨program, .fault .commandMissing⟩

/-- What is shown: the usage, and after a fault the fault. -/
def UsageError.text (error : UsageError) : Text :=
  let usage : Text := "usage: " ++ error.program ++ " [-h] [options]\n"
  match error.stop with
  | .help => usage
  | .fault fault => usage ++ error.program ++ ": error: " ++ fault.message ++ "\n"

end CodeAtlas.Command
