/-
  File:      CodeAtlas/Run.lean
  Subject:   The whole job: scan, write the pages, write the navigation.

  * `RunContext`: what is given to a run besides its settings and the files: the
    languages, templates of one's own choice, what fills in the templates of a folder of
    one's own, the answer of the API documentation tool, and the year.
  * `Scribe`: who carries out a run, and may remember things from run to run.
    `Scribe.generate`: the run. `Work.generate`: the run without a memory.
  * `generate`: a run on a file tree. A failure that the run contains is
    reported as the failure of the run.
  * `Installation.run`: a run that finds its languages itself, unless they are given.
-/
import CodeAtlas.Navigation
import CodeAtlas.Settings

namespace CodeAtlas

open Template (Engine Renderer)

/-- What is given to a run besides its settings. -/
structure RunContext where
  catalog : Catalog
  renderer : Option Renderer
  engine : Engine
  tool : ToolAnswer
  year : Text

/-- What a run has written. -/
structure RunResult where
  destination : Path
  sourceRoots : List Path := []
  pages : List Path := []
  indexPages : List Path := []
  stylesheet : Option Path := none

/-- The languages of a run, with the words to highlight that the settings name. -/
def Settings.catalog (settings : Settings) (given : Catalog) : Catalog :=
  if settings.keywords.isEmpty then given
  else ⟨given.languages.map (·.withReservedWords settings.keywords)⟩

namespace Settings

variable (settings : Settings) (context : RunContext)

/-- The templates of a run, if they are not those of the program. -/
def ownRenderer : Option Renderer :=
  match context.renderer with
  | some renderer => some renderer
  | none => settings.templateFolder.map (Renderer.ofFolder context.engine)

/-- The version of the tool whose templates of the program a run looks for, and what is reported
when the tool is asked for it. -/
def askedVersion : Except Failure (Text × List Record) :=
  match settings.api.version with
  | some version@(_ :: _) => .ok (version, [])
  | _ => context.tool.version

end Settings

namespace Work

variable [Platform]

/-- Reports a message of the run. -/
def announce (level : Level) (message : Text) : Work Unit :=
  report [Stage.running.record level message]

/-- The folder of the API documentation that pages link to. One that is named but missing is
reported; without a name it is looked for beside the destination. -/
def apiFolder (settings : Settings) : Work (Option Path) := do
  if !settings.api.enabled then pure none
  else
    match settings.api.folder with
    | some folder =>
      if ← ask (·.isFolder folder) then pure (some folder)
      else
        announce .warning ("Unable to locate Javadoc at " ++ folder.toText)
        pure none
    | none =>
      let folder := settings.destinationFolder.parent.child "apidocs"
      pure (if ← ask (·.isFolder folder) then some folder else none)

/-- Where the page of a source file is written. -/
def pagePath (destination : Path) (language : Language) (source : Path) (relative : Text) : Path :=
  (destination.join (Path.ofText relative).parent).child (language.pageName source.name ++ ".html")

/-- Writes the page of the file at a relative path below a root. -/
def transformFile (catalog : Catalog) (destination : Path) (options : PageOptions) (root : Path)
    (relative : Text) : Work Path :=
  let source := root.join (Path.ofText relative)
  let language := catalog.languageFor source
  transform language source (pagePath destination language source relative) options

/-- The templates of the navigation pages. -/
def selectRenderer (settings : Settings) (context : RunContext) : Work Renderer := do
  match settings.ownRenderer context with
  | some renderer => pure renderer
  | none =>
    let (version, records) ← ofExcept (settings.askedVersion context)
    report records
    announce .debug ("Using templates for javadoc version " ++ version)
    let (renderer, warnings) ← ofExcept (Renderer.ofVersion (some version))
    report warnings
    pure renderer

/-- The bytes of a style sheet, built in or in the tree. -/
def stylesheetBytes (tree : Tree) (path : Path) : Except FileFault Bytes :=
  let (place, way) := tree.withBuiltIn path
  place.read way

/-- Why a style sheet is not copied. -/
def copyFault (tree : Tree) (source target : Path) : Option Text :=
  match source.anchor, tree.locate source, tree.locate target with
  | .builtIn, _, _ => none
  | _, .ok a, .ok b =>
    if a == b then
      some ("PosixPath(" ++ Text.quoted source.toText ++ ") and PosixPath(" ++
        Text.quoted target.toText ++ ") are the same file")
    else none
  | _, _, _ => none

/-- Copies a file; what the attempt leaves behind stays. -/
def copyStylesheetTo (source target : Path) (tree : Tree) : Tree × Option Text :=
  match tree.makeFolders target.parent with
  | (made, .error fault) => (made, some fault.message)
  | (made, .ok ()) =>
    match copyFault made source target with
    | some fault => (made, some fault)
    | none =>
      match stylesheetBytes made source with
      | .error fault => (made, some fault.message)
      | .ok bytes =>
        match made.write target bytes with
        | .ok written => (written, none)
        | .error fault => (made, some fault.message)

/-- Copies the style sheet of the settings, or else that of the templates, to the destination.
A style sheet that cannot be had or copied is only reported. -/
def copyStylesheet (settings : Settings) (renderer : Renderer) (destination : Path) :
    Work (Option Path) := do
  let own ←
    match settings.stylesheet with
    | some path =>
      if ← ask (Template.isFile · path) then pure (some path)
      else
        announce .warning ("Stylesheet " ++ path.toText ++ " not found, using the default")
        pure none
    | none => pure none
  let found ←
    match own with
    | some path => pure (some path)
    | none => ask renderer.stylesheet?
  match found with
  | none =>
    announce .warning "No stylesheet available to copy"
    pure none
  | some source =>
    let target := destination.child stylesheetName
    let (copied, fault) := copyStylesheetTo source target (← get).tree
    modify fun desk => { desk with tree := copied }
    match fault with
    | none => pure (some target)
    | some why =>
      announce .warning ("Unable to copy stylesheet " ++ source.toText ++ ": " ++ why)
      pure none

/-! ## 1. Parts of a run -/

/-- Reads the roots that hold sources into a new survey. `found` are the languages that are found
where the survey begins. -/
def readRoots (found : Catalog) (settings : Settings) (catalog : Catalog)
    (candidates : List Path) : Work (List Path) := do
  let cache := Cache.empty settings.inputEncoding catalog
  onSurvey fun _ => Survey.start found cache settings.includes settings.excludes
  announce .info ("Scanning " ++ Text.ofNat candidates.length ++ " source root(s)")
  let roots ← candidates.filterM process
  report (← get).survey.dump
  pure roots

/-- What the pages of a run are made with. -/
def pageOptions (settings : Settings) (bottom : Text) : Work PageOptions := do
  pure
    { locale := settings.locale
      inputEncoding := settings.inputEncoding
      outputEncoding := settings.outputEncoding
      apiFolder := ← apiFolder settings
      revision := settings.revision
      bottom }

/-- Writes what comes after the pages: the navigation and the style sheet. -/
def finish (settings : Settings) (context : RunContext) (bottom : Text) (sourceRoots : List Path)
    (pages : List Path) : Work RunResult := do
  let destination := settings.destinationFolder
  announce .info ("Transformed " ++ Text.ofNat pages.length ++ " file(s) into " ++
    destination.toText)
  let renderer ← selectRenderer settings context
  let indexPages ← writeNavigation renderer destination
    { windowTitle := settings.windowTitle
      docTitle := settings.docTitle
      bottom
      outputEncoding := settings.outputEncoding }
  let stylesheet ← copyStylesheet settings renderer destination
  pure { destination, sourceRoots, pages, indexPages, stylesheet }

end Work

/-! ## 2. The run -/

/-- Who carries out a run, in steps that may remember things. -/
structure Scribe (m : Type → Type) where
  /-- Carries out a step that needs no memory. -/
  carryOut : {α : Type} → Work α → m α
  /-- Forgets what must not outlive a survey. -/
  turnOver : m Unit
  /-- Writes the page of the file at a relative path below a root. -/
  transformFile : (destination : Path) → PageOptions → (root : Path) → (relative : Text) → m Path

namespace Scribe

variable [Platform] {m : Type → Type} [Monad m]

/-- Writes the pages of the files below a root. -/
def transformRoot (scribe : Scribe m) (destination : Path) (options : PageOptions) (root : Path) :
    m (List Path) := do
  (← scribe.carryOut (Work.sourcePaths root)).mapM (scribe.transformFile destination options root)

/-- The run. Without sources nothing is written. -/
def generate (scribe : Scribe m) (settings : Settings) (context : RunContext) : m RunResult := do
  let catalog := settings.catalog context.catalog
  let destination := settings.destinationFolder
  let candidates ← scribe.carryOut
    (Work.ask (·.prune (sourceEndings settings.includes catalog) settings.sourceRoots))
  if candidates.isEmpty then
    scribe.carryOut (Work.announce .warning "No source directories with sources found")
    pure { destination }
  else
    let found ← scribe.carryOut (Work.ofExcept (Platform.found.mapError .discovery))
    scribe.turnOver
    let roots ← scribe.carryOut (Work.readRoots found settings catalog candidates)
    let bottom := resolveFooter settings.bottom settings.inceptionYear settings.organization
      context.year
    let options ← scribe.carryOut (Work.pageOptions settings bottom)
    let pages ← roots.mapM (scribe.transformRoot destination options)
    scribe.carryOut (Work.finish settings context bottom roots pages.flatten)

end Scribe

namespace Work

variable [Platform]

/-- Carries out runs without remembering anything. -/
def scribe (catalog : Catalog) : Scribe Work where
  carryOut step := step
  turnOver := pure ()
  transformFile := transformFile catalog

/-- The run, without a memory. -/
def generate (settings : Settings) (context : RunContext) : Work RunResult :=
  (scribe (settings.catalog context.catalog)).generate settings context

end Work

/-! ## 3. Runs on a file tree -/

/-- What a run leaves behind: the files, the records, and its result. -/
structure RunOutcome where
  tree : Tree
  log : List Record
  result : Except Failure RunResult

/-- A run on a file tree. -/
def generate [Platform] (settings : Settings) (context : RunContext) (listener : Option Listener)
    (tree : Tree) (chance : Nat := 0) : RunOutcome :=
  let (result, desk) := (Work.generate settings context).run
    { tree, survey := Survey.blank, listener, chance }
  ⟨desk.tree, desk.log, result.mapError Failure.leaving⟩

/-- What is given to every run besides its settings. -/
structure Installation where
  /-- Languages of one's own choice. -/
  languages : Option Catalog := none
  /-- Templates of one's own choice. -/
  renderer : Option Renderer := none
  engine : Engine
  tool : ToolAnswer
  year : Text

namespace Installation

variable [Platform]

/-- The languages of a run: those that are given, or else those that are found. -/
def given (installation : Installation) : Except DiscoveryError Catalog :=
  match installation.languages with
  | some catalog => .ok catalog
  | none => Platform.found

/-- What is given to a run with these languages. -/
def context (installation : Installation) (catalog : Catalog) : RunContext :=
  { catalog
    renderer := installation.renderer
    engine := installation.engine
    tool := installation.tool
    year := installation.year }

/-- A run on a file tree. -/
def run (installation : Installation) (settings : Settings) (listener : Option Listener)
    (tree : Tree) (chance : Nat := 0) : RunOutcome :=
  match installation.given with
  | .error error => ⟨tree, [], .error (Failure.discovery error).leaving⟩
  | .ok catalog => generate settings (installation.context catalog) listener tree chance

end Installation

end CodeAtlas
