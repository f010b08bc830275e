/-
  File:      CodeAtlas/Template/Renderer.lean
  Subject:   Finding templates by name and filling them in.

  * `Engine`: what makes a page of a template. Templates that come with the program are
    filled in by `Engine.interpreter`; those of others may be filled in by any engine.
  * `Renderer`: the folders in which templates are looked up, and the engine. A folder of
    one's own stands alone; a built-in generation is followed by `base`.
  * `Renderer.render`: the page of a template's name.
  * `Renderer.stylesheet?`: the style sheet that goes with the templates.
-/
import CodeAtlas.Failure
import CodeAtlas.Template.BuiltIn
import CodeAtlas.Template.Generation
import CodeAtlas.Template.Render

namespace CodeAtlas.Template

/-! ## 1. Engines -/

/-- Why the template of a file name makes no page. -/
inductive PageFault where
  | load (fault : LoadFault)
  | fill (fault : Fault)
  /-- An engine breaks off for a reason that is no fault of a template. -/
  | brokenOff (ofSystem : Bool) (why : Text)

/-- What makes a page of the template of a file name: it is given what chance has in store, the
folders of the templates, all files, and the names that the page sees. -/
structure Engine where
  page : (chance : Nat) → (folders : List Path) → Tree → (file : Text) → Scope →
    Except PageFault Text

variable [Platform]

/-- Whether a built-in file or a file of the tree stands at a path. -/
def isFile (tree : Tree) (path : Path) : Except FileFault Bool :=
  let (place, way) := tree.withBuiltIn path
  place.isFile way

/-- The path of a template in a folder. A name that goes up has none. -/
def templatePath? (name : Text) (folder : Path) : Option Path :=
  if (name.splitOn '/').contains ['.', '.'] then none
  else some { folder with segments := folder.segments ++ Path.segmentsOf name }

/-- The template that a file holds. -/
def formOf (path : Path) (text : Text) : Except LoadFault Form :=
  (Form.ofText text).mapError fun
    | .broken why => .broken why
    | .tooDeep limit line => .tooDeep ⟨limit, path.name, line⟩

/-- The template of a file name, from the first of some folders that has it. -/
def load (folders : List Path) (tree : Tree) (name : Text) : Except LoadFault Form :=
  let paths := folders.filterMap (templatePath? name)
  match paths.find? fun path => (isFile tree path).toOption == some true with
  | none => .error .missing
  | some path =>
    let (place, way) := tree.withBuiltIn path
    match place.readText way "utf-8" with
    | .ok text => formOf path text
    | .error (.decode fault) => .error (.encoding fault)
    | .error _ => .error .missing

/-- The names that a page sees, itself among them. Its own name may not be given to another
value. -/
def withOwnName (file : Text) (page : Scope) : Except Fault Scope :=
  match page.lookup selfWord with
  | some _ => .error (.unfit .type "Template.render() got multiple values for argument 'self'")
  | none =>
    let shown := "<TemplateReference " ++ Text.quoted file ++ ">"
    .ok (page ++ [(selfWord, .page shown)])

/-- The engine for the templates that come with the program. It leaves nothing to chance. -/
def Engine.interpreter : Engine where
  page _ folders tree file page :=
    match load folders tree file with
    | .error fault => .error (.load fault)
    | .ok template => do
      let names ← (withOwnName file page).mapError .fill
      let bound := tree.entries.length + builtInTree.entries.length + 1
      (template.fill (load folders tree) names bound).mapError .fill

/-! ## 2. Renderers -/

/-- Where templates come from, and what fills them in. -/
structure Renderer where
  generation : Text
  folders : List Path
  engine : Engine

namespace Renderer

/-- The templates of a folder of one's own. -/
def ofFolder (engine : Engine) (folder : Path) : Renderer := ⟨baseGeneration, [folder], engine⟩

/-- The folders of a generation of the built-in templates: its own, and that of `base`. -/
def generationFolders (generation : Text) : List Path :=
  ([generation, baseGeneration].map fun folder =>
    (⟨.builtIn, []⟩ : Path).join (Path.ofText folder)).eraseDups

/-- The built-in templates of a generation; without one, those of `base`. -/
def ofGeneration (generation : Text) : Renderer :=
  let name := if generation.isEmpty then baseGeneration else generation
  ⟨name, generationFolders name, Engine.interpreter⟩

/-- The templates for a version of the API documentation tool, and a warning if there are none
of their own. -/
def ofVersion (version : Option Text) : Except Failure (Renderer × List Record) := do
  let (generation, records) ← (generationFor version).mapError .longVersion
  return (ofGeneration generation, records)

/-- The first style sheet in the folders. -/
def stylesheet? (renderer : Renderer) (tree : Tree) : Except FileFault (Option Path) :=
  (renderer.folders.map (·.child "stylesheet.css")).findM? (isFile tree)

/-! ## 3. Pages -/

/-- The file name of a template. -/
def fileName (name : Text) : Text := name ++ ".j2"

/-- The failure of a page whose template has a file name and is looked up in some folders. -/
def failure (folders : List Path) (file : Text) : PageFault → Failure
  | .load .missing => .templateMissing file folders
  | .load (.broken why) => .templateBroken file why
  | .load (.encoding fault) | .fill (.encoding fault) => .templateEncoding fault
  | .load (.tooDeep excess) | .fill (.tooDeep excess) => .templateTooDeep excess
  | .fill (.failed why) => .templateFailed file why
  | .fill (.unfit complaint message) => .unfitValue complaint message
  | .brokenOff ofSystem why => .brokenOff ofSystem why

/-- The page that the template of a name makes of some values. -/
def render (renderer : Renderer) (chance : Nat) (tree : Tree) (name : Text) (page : Scope) :
    Except Failure Text :=
  let file := fileName name
  (renderer.engine.page chance renderer.folders tree file page).mapError
    (failure renderer.folders file)

end Renderer

end CodeAtlas.Template
