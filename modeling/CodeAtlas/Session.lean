/-
  File:      CodeAtlas/Session.lean
  Subject:   Runs one after the other, with a memory that they share.

  * `Registry`: languages, and which of them was found for each suffix so far.
  * `PageWriter`: what writes the pages of the files with one suffix: a language, and
    the number of the survey that it looks names up in.
  * `Session`: what is kept from run to run. `Bench`: what a run of a session works
    on, its desk and that memory.
  * `SessionWork.scribe`: who carries out the runs. It forgets the writers when a survey
    begins, and only then: a run without sources keeps them, and so does one that fails later.
  * `Session.run`: a run on a file tree. `Session.after`: what a list of runs leaves.
-/
import CodeAtlas.Run

namespace CodeAtlas

open Template (Engine Renderer)

/-! ## 1. What is kept -/

/-- Languages, and the decisions made so far: which of them, if any, claims a suffix in lower
case. -/
structure Registry where
  catalog : Catalog
  decided : List (Text × Option Language) := []

/-- The language that claims a path. A suffix that was asked for before is not looked up again. -/
def Registry.find (registry : Registry) (path : Path) : Option Language × Registry :=
  let key := Text.lower path.suffix
  match registry.decided.lookup key with
  | some found => (found, registry)
  | none =>
    let found := registry.catalog.languageFor? path
    (found, { registry with decided := (key, found) :: registry.decided })

/-- What writes pages: the language it highlights, and the number of the survey that it looks
names up in and reads files through. -/
structure PageWriter where
  survey : Nat
  language : Language

/-- What is kept from run to run. Surveys are numbered in the order they are begun. -/
structure Session where
  /-- Languages of one's own choice. -/
  languages : Option Registry
  /-- Templates of one's own choice. -/
  renderer : Option Renderer
  /-- The writers by suffix in lower case. -/
  writers : List (Text × PageWriter) := []
  /-- The surveys before the latest one. -/
  past : List Survey := []
  latest : Survey := Survey.blank

/-- A session before its first run. -/
def Session.start (languages : Option Catalog) (renderer : Option Renderer) : Session :=
  { languages := languages.map fun catalog => { catalog }, renderer }

/-- What a run of a session works on. The survey of the desk is the latest one. -/
structure Bench where
  desk : Desk
  registry : Registry
  writers : List (Text × PageWriter)
  past : List Survey

/-! ## 2. Steps -/

/-- A step of a run of a session. -/
abbrev SessionWork := ExceptT Failure (StateM Bench)

namespace SessionWork

variable [Platform]

/-- A step that leaves the memory alone. -/
def onDesk {α : Type} (step : Work α) : SessionWork α := fun bench =>
  let (result, desk) := step.run bench.desk
  (result, { bench with desk })

/-- A step with an earlier survey in the place of the latest. -/
def onPast {α : Type} (number : Nat) (survey : Survey) (step : Work α) : SessionWork α :=
  fun bench =>
    let (result, desk) := step.run { bench.desk with survey }
    (result, { bench with
      desk := { desk with survey := bench.desk.survey }
      past := bench.past.set number desk.survey })

/-- The latest survey becomes one of the past, and the writers are forgotten. -/
def turnOver : SessionWork Unit :=
  modify fun bench => { bench with past := bench.past ++ [bench.desk.survey], writers := [] }

/-- The language of a path; files that no language claims are read as Java. -/
def languageFor (path : Path) : SessionWork Language := do
  let (found, registry) := (← get).registry.find path
  modify fun bench => { bench with registry }
  pure (found.getD Language.java)

/-- The writer for a suffix; a new one takes the language given and the latest survey. -/
def writerFor (suffix : Text) (language : Language) : SessionWork PageWriter := do
  let key := Text.lower suffix
  let bench ← get
  match bench.writers.lookup key with
  | some writer => pure writer
  | none =>
    let writer : PageWriter := ⟨bench.past.length, language⟩
    modify fun bench => { bench with writers := (key, writer) :: bench.writers }
    pure writer

/-- Writes the page of a source file to `target`. -/
def transform (writer : PageWriter) (path target : Path) (options : PageOptions) :
    SessionWork Path := do
  let page := Work.transform writer.language path target options
  match (← get).past[writer.survey]? with
  | some survey => onPast writer.survey survey page
  | none => onDesk page

/-- Writes the page of the file at a relative path below a root. -/
def transformFile (destination : Path) (options : PageOptions) (root : Path) (relative : Text) :
    SessionWork Path := do
  let source := root.join (Path.ofText relative)
  let language ← languageFor source
  let writer ← writerFor source.suffix language
  transform writer source (Work.pagePath destination language source relative) options

/-- Carries out runs with the memory of a session. -/
def scribe : Scribe SessionWork where
  carryOut := onDesk
  turnOver := turnOver
  transformFile := transformFile

end SessionWork

/-! ## 3. Runs -/

/-- What one run of a session is given. -/
structure Job where
  settings : Settings
  engine : Engine
  tool : ToolAnswer
  year : Text
  listener : Option Listener := none
  tree : Tree
  chance : Nat := 0

namespace Session

variable [Platform]

/-- The languages of a run before the settings name words to highlight: those of the session, or
else those that are found. -/
def given (session : Session) : Except DiscoveryError Catalog :=
  match session.languages with
  | some registry => .ok registry.catalog
  | none => Platform.found

/-- What a run of the session is given besides its settings. -/
def context (session : Session) (job : Job) (catalog : Catalog) : RunContext :=
  { catalog
    renderer := session.renderer
    engine := job.engine
    tool := job.tool
    year := job.year }

/-- The registry of a run. The one of the session is taken as it is, unless the settings name words
to highlight. -/
def registryFor (session : Session) (settings : Settings) (catalog : Catalog) : Registry :=
  match session.languages with
  | some registry => if settings.keywords.isEmpty then registry else ⟨settings.catalog catalog, []⟩
  | none => ⟨settings.catalog catalog, []⟩

/-- A run with languages, and the session after it. -/
def runWith (session : Session) (job : Job) (catalog : Catalog) : RunOutcome × Session :=
  let work := SessionWork.scribe.generate job.settings (session.context job catalog)
  let (result, bench) := work.run
    { desk :=
        { tree := job.tree, survey := session.latest, listener := job.listener
          chance := job.chance }
      registry := session.registryFor job.settings catalog
      writers := session.writers
      past := session.past }
  (⟨bench.desk.tree, bench.desk.log, result.mapError Failure.leaving⟩,
    { session with
      languages := session.languages.map fun registry =>
        if job.settings.keywords.isEmpty then bench.registry else registry
      writers := bench.writers
      past := bench.past
      latest := bench.desk.survey })

/-- A run on a file tree, and the session after it. -/
def run (session : Session) (job : Job) : RunOutcome × Session :=
  match session.given with
  | .error error => (⟨job.tree, [], .error (Failure.discovery error).leaving⟩, session)
  | .ok catalog => session.runWith job catalog

/-- The session after a list of runs. -/
def after (session : Session) (jobs : List Job) : Session :=
  jobs.foldl (fun session job => (session.run job).2) session

end Session

end CodeAtlas
