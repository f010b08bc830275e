/-
  File:      CodeAtlas/Program.lean
  Subject:   The program: from the arguments and the files to the messages and the files.

  * `Host`: what the program is told by the machine it runs on.
  * `Outcome`: exit code, messages and files. A crash is an error that the
    program has no message of its own for.
  * `Program.run`: the program.
-/
import CodeAtlas.Command.Request
import CodeAtlas.Listener
import CodeAtlas.Run
import CodeAtlas.Settings.Reading

namespace CodeAtlas

open Command (Request Task)
open Template (Engine)

/-- What the program is told by the machine it runs on. -/
structure Host where
  /-- The folder that relative paths are seen from. -/
  current : Path
  engine : Engine
  tool : ToolAnswer
  year : Text
  /-- The time, as it is written into log files. -/
  clock : Text

/-- An error that the program does not report by itself. -/
inductive Crash where
  | file (fault : FileFault)
  | settings (error : SettingsError)
  | failure (cause : Failure)

/-- The wording of a crash. -/
def Crash.message : Crash → Text
  | .file fault => fault.message
  | .settings error => error.message
  | .failure cause => cause.message

/-- What the program leaves behind. -/
structure Outcome where
  code : Nat
  output : Text := []
  errors : Text := []
  tree : Tree
  crash : Option Crash := none

namespace Program

variable [Platform]

/-! ## 1. Settings -/

/-- A value that is given, or else the one of the settings. -/
def orElse {α : Type} (given : Option α) (usual : Option α) : Option α :=
  match given with
  | some value => some value
  | none => usual

/-- The settings, with what the command line says instead. Its paths are seen from the current
folder. -/
def override (host : Host) (request : Request) (settings : Settings) :
    Except SettingsError Settings := do
  let sourceFolders ← request.sourceFolders.mapM (pathFrom host.current)
  let destination ← pathFrom? host.current request.destination
  let templateFolder ← pathFrom? host.current request.templateFolder
  let pick (given usual : List Text) : List Text := if given.isEmpty then usual else given
  let version := orElse (request.apiVersion.filter (!·.isEmpty)) settings.api.version
  .ok { settings with
    sourceFolders := if sourceFolders.isEmpty then settings.sourceFolders else sourceFolders
    includes := pick request.includes settings.includes
    excludes := pick request.excludes settings.excludes
    destination := orElse destination settings.destination
    templateFolder := orElse templateFolder settings.templateFolder
    api := { settings.api with version } }

/-- The settings of a request. -/
def settingsOf (host : Host) (request : Request) (tree : Tree) : Except SettingsError Settings := do
  let settings ← Settings.load tree host.current (Path.ofText request.path)
  override host request settings

/-! ## 2. Commands -/

/-- Ends with the report of a failure, or with a crash if the failure has no name in this
program. -/
def fail (task : Task) (failure : Failure) (errors : Text) (tree : Tree) : Outcome :=
  let hint : Text :=
    match task with
    | .generate => "Run with --verbose for more details.\n"
    | .scan => []
  let report := loggerRoot ++ " " ++ task.word ++ " failed: " ++ failure.message ++ "\n" ++ hint
  if failure.isNamed then { code := 1, errors := errors ++ report, tree }
  else { code := 1, errors, tree, crash := some (.failure failure) }

/-- The message after a run. -/
def summary (current : Path) (result : RunResult) : Text :=
  if result.pages.isEmpty then "No sources found; nothing generated\n"
  else
    let shown := (current.below? result.destination).getD result.destination
    "Cross-reference written to " ++ shown.toText ++ " (" ++ Text.ofNat result.pages.length ++
      " files)\n"

/-- Writes the pages. -/
def generatePages (host : Host) (listener : Listener) (settings : Settings) (tree : Tree) :
    Outcome :=
  let installation : Installation :=
    { engine := host.engine, tool := host.tool, year := host.year }
  let run := installation.run settings (some listener) tree
  let errors := Listener.shown (some listener) run.log
  match run.result with
  | .ok result => { code := 0, output := summary host.current result, errors, tree := run.tree }
  | .error failure => fail .generate failure errors run.tree

/-- Reads the source roots that hold sources. -/
def scanRoots (settings : Settings) : Work Unit := do
  let desk ← get
  let endings := sourceEndings settings.includes desk.survey.cache.catalog
  (← Work.ask (·.prune endings settings.sourceRoots)).forM fun root => do
    let _ ← Work.process root

/-- The lines of a package and its types. -/
def packageLines (package : Package) : Text :=
  package.shownName ++ ['\n'] ++
    package.types.flatMap fun declaration => [' ', ' '] ++ declaration.name ++ ['\n']

/-- A survey with the languages that are found, and the settings' patterns. -/
def newSurvey (found : Catalog) (settings : Settings) : Survey :=
  Survey.start found (Cache.empty none found) settings.includes settings.excludes

/-- Lists packages and types. -/
def listTypes (listener : Listener) (settings : Settings) (tree : Tree) : Outcome :=
  match Platform.found with
  | .error error => fail .scan (.discovery error) [] tree
  | .ok found =>
    let (result, desk) := (scanRoots settings).run
      { tree, survey := newSurvey found settings, listener := some listener }
    let errors := Listener.shown (some listener) desk.log
    match result with
    | .ok () =>
      { code := 0, output := desk.survey.table.sorted.flatMap packageLines, errors
        tree := desk.tree }
    | .error failure => fail .scan failure errors desk.tree

/-! ## 3. The program -/

/-- Carries out a request. -/
def carryOut (host : Host) (request : Request) (tree : Tree) : Outcome :=
  let file := request.logFile.map fun text => host.current.join (Path.ofText text)
  match Listener.start request.verbose file host.clock tree with
  | (tree, _, .error fault) => { code := 1, tree, crash := some (.file fault) }
  | (tree, listener, .ok ()) =>
    match settingsOf host request tree with
    | .error error =>
      if error.isReported then { code := 1, errors := error.message ++ "\n", tree }
      else { code := 1, tree, crash := some (.settings error) }
    | .ok settings =>
      match request.task with
      | .generate => generatePages host listener settings tree
      | .scan => listTypes listener settings tree

/-- The program. -/
def run (host : Host) (arguments : List Text) (tree : Tree) : Outcome :=
  match Request.parse arguments with
  | .ok request => carryOut host request tree
  | .error error =>
    match error.stop with
    | .help => { code := 0, output := error.text, tree }
    | .fault _ => { code := 2, errors := error.text, tree }

end Program

end CodeAtlas
