/-
  File:      CodeAtlas/Work.lean
  Subject:   Steps of a run: they change files, extend the survey, report, and may fail.

  * `Desk`: the file tree, the survey, the records so far and who listens.
  * `Work`: a step. What was changed and reported before a failure stays.
  * `Work.report`: a record is in the file of the listener before the next step, so
    that a step may read it there or write over it.
  * `Work.process`, `Work.transform`: reads a source root; writes the page of a
    source file.
-/
import CodeAtlas.Listener
import CodeAtlas.Page
import CodeAtlas.Survey

namespace CodeAtlas

/-- What a run works on. -/
structure Desk where
  tree : Tree
  survey : Survey
  log : List Record := []
  listener : Option Listener := none
  /-- What chance has in store for the run. Nothing but the filling in of templates looks at it. -/
  chance : Nat := 0

/-- A step of a run. -/
abbrev Work := ExceptT Failure (StateM Desk)

namespace Work

variable [Platform]

/-- Reports. -/
def report (records : List Record) : Work Unit :=
  modify fun desk =>
    { desk with log := desk.log ++ records, tree := Listener.note desk.listener records desk.tree }

/-- A result as a step. -/
def ofExcept {α : Type} : Except Failure α → Work α
  | .ok value => pure value
  | .error failure => throw failure

/-- Looks at the file tree. -/
def ask {α : Type} (question : Tree → Except FileFault α) : Work α := do
  ofExcept ((question (← get).tree).mapError .file)

/-- Changes the file tree; the change stays also when it is a failure. -/
def onTree {α : Type} (change : Tree → Tree × Except Failure α) : Work α := do
  let (tree, result) := change (← get).tree
  modify fun desk => { desk with tree }
  ofExcept result

/-- Changes the survey. -/
def onSurvey (change : Survey → Survey) : Work Unit :=
  modify fun desk => { desk with survey := change desk.survey }

/-- The outline of a source file, through the cache of the survey. -/
def fetch (path : Path) : Work SourceFile := do
  report (Survey.readingRecords (← get).survey.cache path)
  let desk ← get
  let (source, cache) ← ofExcept (desk.survey.cache.get desk.tree path)
  onSurvey ({ · with cache })
  pure source

/-- The paths below a root that the survey reads, in ascending order. -/
def sourcePaths (root : Path) : Work (List Text) := do
  let desk ← get
  ofExcept (desk.survey.sourcePaths desk.tree root)

/-- Reads files below a folder into the survey, until one fails. -/
def readFiles (folder : Path) : List Text → Work Unit
  | [] => pure ()
  | path :: paths => do
    let source ← fetch (folder.join (Path.ofText path))
    onSurvey (·.register source)
    readFiles folder paths

/-- Reads a source root into the survey; `false` if it had been seen before. A root counts as
seen from the moment its scan begins, also when the scan fails, and what was read before a
failure stays. -/
def process (root : Path) : Work Bool := do
  let key ← ofExcept (root.resolve.mapError .file)
  if (← get).survey.roots.contains key then pure false
  else
    onSurvey (·.mark key)
    report [Survey.scanningRecord key]
    readFiles key (← sourcePaths key)
    pure true

/-- The encoding in which the text of a page is read: that of the options, or else that of the
cache. -/
def inputEncoding (options : PageOptions) (cache : Cache) : Text :=
  match options.inputEncoding with
  | some name@(_ :: _) => name
  | _ => encodingOrDefault cache.encoding

/-- The lines of a text, unless one of them has too many comments. -/
def fitLines (text : Text) : Except Failure (List Text) :=
  let lines := splitLines text
  if Markup.exceeds Platform.stack.comments .code lines then .error .tooDeep else .ok lines

/-- Writes the page of a source file to `target`. -/
def transform (language : Language) (path target : Path) (options : PageOptions) : Work Path := do
  let source ← fetch path
  let desk ← get
  let text ← ofExcept (desk.tree.readSource path (inputEncoding options desk.survey.cache))
  report [Stage.transforming.record .debug
    ("Transforming " ++ path.toText ++ " -> " ++ target.toText)]
  let lines ← ofExcept (fitLines text)
  let linker := Markup.Linker.ofLanguage source desk.survey.table language
  let page := linker.page lines options ⟨.root, []⟩ (some target.parent)
  onTree fun tree => tree.publish target options.outputEncoding page
  pure target

end Work

end CodeAtlas
