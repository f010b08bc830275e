/-
  File:      CodeAtlas/Log.lean
  Subject:   What a run reports about its work.

  * `Record`: a message, how important it is, and the stage it comes from.
  * `Record.line`: a record as it is shown in full.
-/
import CodeAtlas.Text.Basic

namespace CodeAtlas

/-- How important a message is. -/
inductive Level where
  | debug
  | info
  | warning
  | error
  | critical
  deriving DecidableEq, Repr

/-- The rank of a level; higher is more important. -/
def Level.rank : Level → Nat
  | .debug => 10
  | .info => 20
  | .warning => 30
  | .error => 40
  | .critical => 50

/-- The name of a level. -/
def Level.name : Level → Text
  | .debug => "DEBUG"
  | .info => "INFO"
  | .warning => "WARNING"
  | .error => "ERROR"
  | .critical => "CRITICAL"

/-- The level of a name. Two of them have another name. -/
def Level.named? (name : Text) : Option Level :=
  [("DEBUG".toList, .debug), ("INFO".toList, .info), ("WARNING".toList, .warning),
   ("WARN".toList, .warning), ("ERROR".toList, .error), ("CRITICAL".toList, .critical),
   ("FATAL".toList, .critical)].lookup name

/-- The parts of the program that report. -/
inductive Stage where
  | scanning
  | caching
  | transforming
  | indexing
  | templates
  | running
  deriving DecidableEq, Repr

/-- The name that all reports of the program start with. -/
def loggerRoot : Text := "srcxref"

/-- The full name of a reporter; without a stage it is the program itself. -/
def loggerName (stage : Option Text) : Text :=
  match stage with
  | some name@(_ :: _) => loggerRoot ++ "." ++ name
  | _ => loggerRoot

/-- The name of a stage. -/
def Stage.name : Stage → Text
  | .scanning => "symbols"
  | .caching => "stores.file_cache"
  | .transforming => "highlight.transform"
  | .indexing => "indexing.indexer"
  | .templates => "indexing.rendering"
  | .running => "xref"

/-- One message. -/
structure Record where
  level : Level
  /-- The full name of the reporter. -/
  logger : Text
  message : Text
  deriving DecidableEq, Repr

/-- A message of a stage. -/
def Stage.record (stage : Stage) (level : Level) (message : Text) : Record :=
  ⟨level, loggerName (some stage.name), message⟩

/-- Level, reporter and message on one line. -/
def Record.line (record : Record) : Text :=
  record.level.name ++ " " ++ record.logger ++ ": " ++ record.message

end CodeAtlas
