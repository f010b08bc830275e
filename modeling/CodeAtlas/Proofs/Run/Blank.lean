/-
  File:      CodeAtlas/Proofs/Run/Blank.lean
  Subject:   Navigation from templates that say nothing about their pages.

  Such templates make the same text of every page, whatever it is about. So the
  navigation of a run can be followed without filling templates in: what remains
  is where files are found and written.

  * `FlatRenderer`: a renderer with such templates. `FlatRenderer.ofBlank`: templates
    that hold nothing, for which pages have no text.
  * `Work.flatPages`: the desk after such pages are written into a folder.
  * `Work.yields_writeNavigation`: the navigation succeeds if its pages can be
    written. `Work.yields_flatNavigation`: so does the rest of the run.
-/
import CodeAtlas.Proofs.Run.Steps

namespace CodeAtlas

open ExceptT (outcome_bind outcome_get)
open Template (Engine Renderer Scope)

variable [Platform]

/-! ## 1. Blank templates -/

namespace Template.Renderer

/-- Whether the template of a page is there and holds nothing. -/
def isBlank (renderer : Renderer) (tree : Tree) (name : Text) : Bool :=
  match (renderer.folders.filterMap (templatePath? (fileName name))).find? fun path =>
      (isFile tree path).toOption == some true with
  | none => false
  | some path =>
    let (place, way) := tree.withBuiltIn path
    (place.readText way "utf-8").toOption == some []

omit [Platform] in
theorem formOf_nil (path : Path) : formOf path [] = .ok ⟨[], []⟩ := by
  have hblank : Form.ofText [] = .ok ⟨[], []⟩ := by cbv
  unfold formOf
  rw [hblank]
  rfl

theorem load_of_isBlank {renderer : Renderer} {tree : Tree} {name : Text}
    (h : renderer.isBlank tree name) :
    load renderer.folders tree (fileName name) = .ok ⟨[], []⟩ := by
  unfold isBlank at h
  split at h
  · cases h
  · rename_i path hpath
    simp only [load, hpath]
    cases hread : (tree.withBuiltIn path).1.readText (tree.withBuiltIn path).2 "utf-8".toList with
    | error fault =>
      simp only [hread] at h
      cases h
    | ok text =>
      simp only [hread, beq_iff_eq] at h
      cases h
      exact formOf_nil path

/-- The page of a blank template has no text. -/
theorem render_of_isBlank {renderer : Renderer} (hengine : renderer.engine = Engine.interpreter)
    {tree : Tree} {name : Text} {page : Scope} (h : renderer.isBlank tree name)
    (hself : page.lookup selfWord = none) (chance : Nat) :
    renderer.render chance tree name page = .ok [] := by
  simp only [render, hengine, Engine.interpreter, load_of_isBlank h, withOwnName, hself]
  rfl

end Template.Renderer

/-! ## 2. Flat templates -/

/-- A renderer that makes the same text of every page of a name, as far as `text?` tells. -/
structure FlatRenderer extends Renderer where
  text? : (chance : Nat) → Tree → (name : Text) → Option Text
  render_eq : ∀ {chance : Nat} {tree : Tree} {name text : Text} {page : Scope},
    text? chance tree name = some text → page.lookup Template.selfWord = none →
      toRenderer.render chance tree name page = .ok text

/-- A renderer of the built-in engine, of whose templates it can be told that they hold nothing. -/
def FlatRenderer.ofBlank (renderer : Renderer) (hengine : renderer.engine = Engine.interpreter) :
    FlatRenderer where
  toRenderer := renderer
  text? _ tree name := if renderer.isBlank tree name then some [] else none
  render_eq {chance _ _ _ _} htext hself := by
    split at htext
    · rename_i hblank
      cases htext
      exact Renderer.render_of_isBlank hengine hblank hself chance
    · cases htext

/-! ## 3. Flat pages -/

namespace Work

variable {flat : FlatRenderer} {encoding : Text}

/-- Writes a page with a text. -/
def writeFlat (encoding : Text) (folder : Path) (name text : Text) : Work Path := do
  let target := folder.child (name ++ ".html")
  onTree fun tree => tree.publish target encoding text
  report [Stage.indexing.record .debug ("Wrote " ++ target.toText)]
  pure target

theorem outcome_writePage {desk : Desk} {folder : Path} {scope : Scope} {name text : Text}
    (h : flat.text? desk.chance desk.tree name = some text)
    (hself : scope.lookup Template.selfWord = none) :
    (writePage flat.toRenderer encoding folder scope name).outcome desk =
      (writeFlat encoding folder name text).outcome desk := by
  unfold writePage
  rw [outcome_bind, outcome_get]
  simp only [flat.render_eq h hself]
  rfl

/-- The desk after flat pages are written into a folder, as long as their texts can be told and the
pages can be written. -/
def flatPages (flat : FlatRenderer) (encoding : Text) (folder : Path) :
    List Text → Desk → Option Desk
  | [], desk => some desk
  | name :: names, desk =>
    match flat.text? desk.chance desk.tree name with
    | none => none
    | some text =>
      match (writeFlat encoding folder name text).outcome desk with
      | (.ok _, after) => flatPages flat encoding folder names after
      | (.error _, _) => none

theorem yields_writePages {folder : Path} {scope : Scope} {names : List Text} {desk after : Desk}
    (hself : scope.lookup Template.selfWord = none)
    (h : flatPages flat encoding folder names desk = some after) :
    ∃ targets, (names.mapM (writePage flat.toRenderer encoding folder scope)).Yields desk targets
      after := by
  induction names generalizing desk with
  | nil =>
    cases h
    exact ⟨[], rfl⟩
  | cons name names ih =>
    unfold flatPages at h
    split at h
    case h_1 => cases h
    case h_2 text htext =>
      split at h
      case h_2 => cases h
      case h_1 target between hpage =>
        obtain ⟨targets, htargets⟩ := ih h
        refine ⟨target :: targets, ?_⟩
        rw [List.mapM_cons]
        refine yields_bind.mpr ⟨target, between, ?_, yields_bind.mpr ⟨targets, after, htargets, rfl⟩⟩
        exact (outcome_writePage htext hself).trans hpage

/-- The desk after the pages of packages are written, given by their folders. -/
def flatPackages (flat : FlatRenderer) (encoding : Text) (root : Path) :
    List Text → Desk → Option Desk
  | [], desk => some desk
  | folder :: folders, desk =>
    (flatPages flat encoding (root.join (Path.ofText folder)) packagePages desk).bind
      (flatPackages flat encoding root folders)

theorem yields_packages {root : Path} {scope : Scope} {entries : List (Text × PackageEntry)}
    {desk after : Desk} (hself : scope.lookup Template.selfWord = none)
    (h : flatPackages flat encoding root (entries.map (·.2.folder)) desk = some after) :
    ∃ targets, (entries.mapM fun entry : Text × PackageEntry => packagePages.mapM
      (writePage flat.toRenderer encoding (root.join (Path.ofText entry.2.folder))
        (entry.2.scope scope))).Yields desk targets after := by
  induction entries generalizing desk with
  | nil =>
    cases h
    exact ⟨[], rfl⟩
  | cons entry entries ih =>
    obtain ⟨between, hpages, hrest⟩ := Option.bind_eq_some_iff.mp h
    have hown : (entry.2.scope scope).lookup Template.selfWord = none := hself
    obtain ⟨pages, hpages⟩ := yields_writePages hown hpages
    obtain ⟨targets, htargets⟩ := ih hrest
    refine ⟨pages :: targets, ?_⟩
    rw [List.mapM_cons]
    exact yields_bind.mpr ⟨pages, between, hpages,
      yields_bind.mpr ⟨targets, after, htargets, rfl⟩⟩

/-- The navigation of a run succeeds if its templates are flat and its pages can be written. -/
theorem yields_writeNavigation {root : Path} {options : NavigationOptions} {folders : List Text}
    {desk last : Desk}
    (hfolders : (ProjectIndex.ofTable desk.survey.table).packages.map (·.2.folder) = folders)
    (h : (flatPages flat options.outputEncoding root rootPages desk).bind
      (flatPackages flat options.outputEncoding root folders) = some last) :
    ∃ written records, (writeNavigation flat.toRenderer root options).Yields desk written
      ((report records).left last) := by
  subst hfolders
  obtain ⟨between, hroot, hpackages⟩ := Option.bind_eq_some_iff.mp h
  have hself : ((ProjectIndex.ofTable desk.survey.table).scope options).lookup
      Template.selfWord = none := rfl
  obtain ⟨atRoot, hatRoot⟩ := yields_writePages hself hroot
  obtain ⟨inPackages, hinPackages⟩ := yields_packages hself hpackages
  unfold writeNavigation
  exact ⟨_, _, yields_bind.mpr ⟨desk, desk, rfl, yields_bind.mpr ⟨atRoot, between, hatRoot,
    yields_bind.mpr ⟨inPackages, last, hinPackages, yields_bind.mpr ⟨(), _, rfl, rfl⟩⟩⟩⟩⟩

/-- Without a style sheet there is nothing to copy. -/
theorem yields_copyStylesheet {renderer : Renderer} {settings : Settings} {desk : Desk}
    (hown : settings.stylesheet = none) (destination : Path)
    (h : renderer.stylesheet? desk.tree = .ok none) :
    (copyStylesheet settings renderer destination).Yields desk none
      ((announce .warning "No stylesheet available to copy").left desk) := by
  unfold copyStylesheet
  simp only [hown]
  exact yields_bind.mpr ⟨none, desk, rfl, yields_bind.mpr ⟨none, desk,
    yields_ask.mpr ⟨h, rfl⟩, yields_bind.mpr ⟨(), _, rfl, rfl⟩⟩⟩

/-- All that a run with flat templates and without a style sheet does after its pages. The files
are those after the last page. -/
theorem yields_flatNavigation {settings : Settings} {root : Path} {options : NavigationOptions}
    {folders : List Text} {desk last : Desk} (hown : settings.stylesheet = none)
    (hfolders : (ProjectIndex.ofTable desk.survey.table).packages.map (·.2.folder) = folders)
    (hlast : (flatPages flat options.outputEncoding root rootPages desk).bind
      (flatPackages flat options.outputEncoding root folders) = some last)
    (hlistener : last.listener = none)
    (hsheet : (flat.stylesheet? last.tree).toOption = some none) :
    ∃ written between after, (writeNavigation flat.toRenderer root options).Yields desk written
        between ∧
      (copyStylesheet settings flat.toRenderer root).Yields between none after ∧
      after.survey.table = desk.survey.table ∧ after.tree = last.tree := by
  obtain ⟨written, records, hwritten⟩ := yields_writeNavigation hfolders hlast
  have hquiet (desk : Desk) (hdesk : desk.listener = none) (records : List Record) :
      ((report records).left desk).tree = desk.tree := by
    change Listener.note desk.listener records desk.tree = _
    rw [hdesk]
    rfl
  have hbetween := hquiet last hlistener records
  have hcopied := yields_copyStylesheet hown root (hbetween.symm ▸ eq_ok_of_toOption hsheet)
  refine ⟨written, _, _, hwritten, hcopied, ?_, ?_⟩
  · rw [(keepsTable_copyStylesheet _ _ _).of_yields hcopied,
      (keepsTable_writeNavigation _ _ _).of_yields hwritten]
  · exact (hquiet ((report records).left last) hlistener _).trans hbetween

end Work

end CodeAtlas
