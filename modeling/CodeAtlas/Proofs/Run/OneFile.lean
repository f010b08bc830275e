/-
  File:      CodeAtlas/Proofs/Run/OneFile.lean
  Subject:   Runs over one file, with templates that say nothing about their pages.

  Whether such a run succeeds is settled by a few facts, each about one part of it.
  All but the sorting of paths and packages can be computed.

  * `generate_eq_ok_iff`: a run on a file tree, as a step from its first desk.
  * `OneFile`: what a run over one file is given, and the desks between its parts.
  * `OneFile.IsRead`: the facts by which its file is read.
  * `OneFile.Goes`: those by which it succeeds. `OneFile.Goes.yields_generate`: then it does.
-/
import CodeAtlas.Proofs.Run.Failing

namespace CodeAtlas

/-! ## 1. Runs on file trees -/

/-- The desk that a run on a file tree starts from. -/
def firstDesk (listener : Option Listener) (tree : Tree) (chance : Nat := 0) : Desk :=
  { tree, survey := Survey.blank, listener, chance }

theorem generate_outcome [Platform] (settings : Settings) (context : RunContext)
    (listener : Option Listener) (tree : Tree) (chance : Nat) :
    generate settings context listener tree chance =
      ⟨((Work.generate settings context).outcome (firstDesk listener tree chance)).2.tree,
        ((Work.generate settings context).outcome (firstDesk listener tree chance)).2.log,
        ((Work.generate settings context).outcome (firstDesk listener tree chance)).1.mapError
          Failure.leaving⟩ := rfl

theorem generate_eq_ok_iff [Platform] {settings : Settings} {context : RunContext}
    {listener : Option Listener} {tree left : Tree} {chance : Nat} {result : RunResult} :
    (generate settings context listener tree chance).result = .ok result ∧
        (generate settings context listener tree chance).tree = left ↔
      ∃ after, (Work.generate settings context).Yields (firstDesk listener tree chance) result
        after ∧ after.tree = left := by
  rw [generate_outcome]
  unfold Work.Yields
  rcases (Work.generate settings context).outcome (firstDesk listener tree chance) with
    ⟨failure | found, after⟩
  · constructor
    · intro h
      cases h.1
    · intro h
      obtain ⟨_, hyields, -⟩ := h
      cases hyields
  · constructor
    · intro h
      obtain ⟨hresult, hleft⟩ := h
      cases hresult
      exact ⟨after, rfl, hleft⟩
    · intro h
      obtain ⟨_, hyields, hleft⟩ := h
      cases hyields
      exact ⟨rfl, hleft⟩

/-- A run on a file tree fails as its step from the first desk does. -/
theorem generate_result_of_fails [Platform] {settings : Settings} {context : RunContext}
    {listener : Option Listener} {tree : Tree} {chance : Nat} {failure : Failure} {after : Desk}
    (h : (Work.generate settings context).Fails (firstDesk listener tree chance) failure after) :
    (generate settings context listener tree chance).result = .error failure.leaving := by
  rw [generate_outcome, show (Work.generate settings context).outcome
    (firstDesk listener tree chance) = (.error failure, after) from h]
  rfl

namespace Installation

variable [Platform] {installation : Installation} {settings : Settings}
  {listener : Option Listener} {tree : Tree} {chance : Nat}

theorem run_of_given {catalog : Catalog} (h : installation.given = .ok catalog) :
    installation.run settings listener tree chance =
      generate settings (installation.context catalog) listener tree chance := by
  unfold run
  rw [h]

/-- Without languages there is no run. -/
theorem result_of_given {error : DiscoveryError} (h : installation.given = .error error) :
    (installation.run settings listener tree chance).result =
      .error (Failure.discovery error).leaving := by
  unfold run
  rw [h]

end Installation

/-! ## 2. One file -/

section Usual

attribute [local instance] Platform.usual

/-- Templates that hold nothing. -/
def blankRenderer : Template.Renderer := .ofFolder .interpreter ⟨.root, ["t".toList]⟩

/-- The same, as templates whose pages can be told. -/
def blankFlat : FlatRenderer := .ofBlank blankRenderer rfl

/-- The standard languages and templates that hold nothing. -/
def blankContext : RunContext :=
  { catalog := Catalog.standard
    renderer := some blankRenderer
    engine := .interpreter
    tool := .failed []
    year := [] }

/-- An installation with such templates, which finds its languages itself. -/
def blankInstallation : Installation where
  renderer := some blankRenderer
  engine := .interpreter
  tool := .failed []
  year := []

/-- The folder of these templates, as a tree lists it. -/
def blankTemplates : List (Location × Entry) :=
  (["t".toList], .folder) ::
    (rootPages ++ packagePages).map fun name => (["t".toList, name ++ ".j2".toList], .file [])

/-- A run that finds one file. -/
structure OneFile where
  settings : Settings
  tree : Tree
  root : Path
  file : Text
  templates : FlatRenderer := blankFlat
  chance : Nat := 0

namespace OneFile

open Work

variable (run : OneFile)

/-- What is given to the run besides its settings. -/
def context : RunContext := { blankContext with renderer := some run.templates.toRenderer }

/-- The desk before the run. -/
def first : Desk := firstDesk none run.tree run.chance

/-- The desk before the root is scanned. -/
def noted : Desk :=
  (announce .info ("Scanning " ++ Text.ofNat [run.root].length ++ " source root(s)")).left
    (started run.settings run.context Catalog.standard run.first)

/-- The desk before the file is read. -/
def marked : Desk := Work.marked run.root run.noted

/-- The desk after the root is read. -/
def read : Desk := (readFiles run.root [run.file]).left run.marked

/-- The desk before the page is written. -/
def dumped : Desk := (report run.read.survey.dump).left run.read

/-- What the page is made with. -/
def options : PageOptions :=
  { locale := run.settings.locale
    inputEncoding := run.settings.inputEncoding
    outputEncoding := run.settings.outputEncoding
    revision := run.settings.revision
    bottom := resolveFooter run.settings.bottom run.settings.inceptionYear
      run.settings.organization run.context.year }

/-- The page of the file. -/
def page : Work Path :=
  let source := run.root.join (Path.ofText run.file)
  let language := (run.settings.catalog run.context.catalog).languageFor source
  transform language source (pagePath run.settings.destinationFolder language source run.file)
    run.options

/-- The desk before the navigation is written. -/
def paged : Desk :=
  (announce .info ("Transformed " ++ Text.ofNat 1 ++ " file(s) into " ++
    run.settings.destinationFolder.toText)).left (run.page.left run.dumped)

/-- The desk after the pages of the navigation, for packages in the given folders. -/
def last? (folders : List Text) : Option Desk :=
  (flatPages run.templates run.settings.outputEncoding run.settings.destinationFolder rootPages
    run.paged).bind (flatPackages run.templates run.settings.outputEncoding
      run.settings.destinationFolder folders)

/-! ## 3. Reading the file -/

/-- What makes the file be read: its root is the only one, the file is the only one below it, and
there is no API documentation to look for. -/
structure IsRead : Prop where
  prune : run.tree.prune (sourceEndings run.settings.includes
    (run.settings.catalog run.context.catalog)) run.settings.sourceRoots = .ok [run.root]
  resolve : run.root.resolve = .ok run.root
  paths : run.marked.survey.sourcePaths run.marked.tree run.root = .ok [run.file]
  reads : ((readFiles run.root [run.file]).outcome run.marked).1.isOk
  api : run.settings.api.enabled = false

section IsRead

variable {run} (h : run.IsRead)
include h

theorem IsRead.yields_readFiles : (readFiles run.root [run.file]).Yields run.marked () run.read :=
  (exists_yields h.reads).elim fun _ hread => hread

theorem IsRead.yields_roots : ([run.root].filterM process).Yields run.noted [run.root] run.read := by
  have hprocess : (process run.root).Yields run.noted true run.read :=
    yields_process.mpr ⟨run.root, h.resolve,
      Or.inr ⟨List.not_mem_nil, rfl, [run.file], h.paths, h.yields_readFiles⟩⟩
  exact yields_filterM_cons.mpr ⟨true, run.read, [], hprocess, rfl, rfl⟩

theorem IsRead.yields_readRoots :
    (readRoots Catalog.standard run.settings (run.settings.catalog run.context.catalog)
      [run.root]).Yields run.first [run.root] run.dumped :=
  Work.yields_readRoots.mpr ⟨run.noted, run.read, rfl, h.yields_roots, rfl⟩

/-- The same file is found again after it has been read. -/
theorem IsRead.sourcePaths_dumped :
    run.dumped.survey.sourcePaths run.dumped.tree run.root = .ok [run.file] := by
  have hsteady : Steady run.marked :=
    ⟨rfl, Cache.faithful_empty none Catalog.standard run.tree⟩
  have hdump : (report run.read.survey.dump).Yields run.read () run.dumped := rfl
  rw [sourcePaths_of_readFiles hsteady h.yields_readFiles hdump]
  exact h.paths

theorem IsRead.yields_apiFolder : (apiFolder run.settings).Yields run.dumped none run.dumped := by
  unfold apiFolder
  rw [h.api]
  rfl

/-- Where the page of the file fails, the run does. -/
theorem IsRead.fails_generate {failure : Failure} {left : Desk}
    (hpage : run.page.Fails run.dumped failure left) :
    (Work.generate run.settings run.context).Fails run.first failure left := by
  have hroot : (transformRoot (run.settings.catalog run.context.catalog)
      run.settings.destinationFolder run.options run.root).Fails run.dumped failure left := by
    refine fails_bind.mpr (Or.inr ⟨[run.file], run.dumped,
      yields_sourcePaths.mpr ⟨h.sourcePaths_dumped, rfl⟩, ?_⟩)
    rw [List.mapM_cons]
    exact fails_bind.mpr (Or.inl hpage)
  rw [generate_eq]
  refine fails_bind.mpr (Or.inr ⟨[run.root], _, yields_ask.mpr ⟨h.prune, rfl⟩, ?_⟩)
  refine fails_bind.mpr (Or.inr ⟨Catalog.standard, _, rfl, ?_⟩)
  refine fails_bind.mpr (Or.inr ⟨[run.root], _, h.yields_readRoots, ?_⟩)
  refine fails_bind.mpr (Or.inr ⟨run.options, run.dumped,
    yields_pageOptions.mpr ⟨none, h.yields_apiFolder, rfl⟩, ?_⟩)
  refine fails_bind.mpr (Or.inl ?_)
  rw [List.mapM_cons]
  exact fails_bind.mpr (Or.inl hroot)

end IsRead

/-! ## 4. The whole run -/

/-- What makes the run succeed: each part does, and there is no style sheet. -/
structure Goes (table : SymbolTable) (folders : List Text) : Prop extends run.IsRead where
  pages : (run.page.outcome run.dumped).1.isOk
  shows : run.paged.survey.table = table
  lists : (ProjectIndex.ofTable table).packages.map (·.2.folder) = folders
  copies : (run.last? folders).map (fun last =>
    (last.listener, (run.templates.stylesheet? last.tree).toOption)) = some (none, some none)
  sheet : run.settings.stylesheet = none

variable {run} {table : SymbolTable} {folders : List Text} (h : run.Goes table folders)
include h

theorem Goes.yields_pages {page : Path}
    (hpage : run.page.Yields run.dumped page (run.page.left run.dumped)) :
    ([run.root].mapM (transformRoot (run.settings.catalog run.context.catalog)
      run.settings.destinationFolder run.options)).Yields run.dumped [[page]]
        (run.page.left run.dumped) :=
  yields_transformRoot_singleton h.sourcePaths_dumped hpage

theorem Goes.yields_navigation (options : NavigationOptions)
    (hencoding : options.outputEncoding = run.settings.outputEncoding) :
    ∃ written between after last,
      (writeNavigation run.templates.toRenderer run.settings.destinationFolder options).Yields
        run.paged written between ∧
      (copyStylesheet run.settings run.templates.toRenderer run.settings.destinationFolder).Yields
        between none after ∧
      after.survey.table = table ∧ run.last? folders = some last ∧ after.tree = last.tree := by
  obtain ⟨last, hlast, hfacts⟩ := Option.map_eq_some_iff.mp h.copies
  obtain ⟨hlistener, hsheet⟩ := Prod.mk.inj hfacts
  have hfolders := h.lists
  rw [← h.shows] at hfolders
  have hpages := hlast
  unfold last? at hpages
  rw [← hencoding] at hpages
  obtain ⟨written, between, after, hwritten, hcopied, htable, htree⟩ :=
    yields_flatNavigation h.sheet hfolders hpages hlistener hsheet
  exact ⟨written, between, after, last, hwritten, hcopied, htable.trans h.shows, hlast, htree⟩

omit h

/-- What the run is told about its navigation. -/
def navigation (run : OneFile) : NavigationOptions :=
  { windowTitle := run.settings.windowTitle
    docTitle := run.settings.docTitle
    bottom := run.options.bottom
    outputEncoding := run.settings.outputEncoding }

/-- **Then the run succeeds**, part by part. -/
theorem Goes.yields_generate (h : run.Goes table folders) :
    ∃ page written chosen shown after last,
      run.page.Yields run.dumped page (run.page.left run.dumped) ∧
      (writeNavigation run.templates.toRenderer run.settings.destinationFolder
        run.navigation).Yields chosen written shown ∧
      (Work.generate run.settings run.context).Yields run.first
        { destination := run.settings.destinationFolder
          sourceRoots := [run.root]
          pages := [page]
          indexPages := written } after ∧
      after.survey.table = table ∧ run.last? folders = some last ∧ after.tree = last.tree := by
  obtain ⟨page, hpage⟩ := exists_yields h.pages
  have hpages := h.yields_pages hpage
  obtain ⟨written, between, after, last, hwritten, hcopied, hafter⟩ :=
    h.yields_navigation run.navigation rfl
  let stages : Stages run.settings run.context [run.root] run.first
      { destination := run.settings.destinationFolder
        sourceRoots := [run.root]
        pages := [page]
        indexPages := written } after :=
    { found := Catalog.standard
      noted := run.noted
      read := run.read
      dumped := run.dumped
      looked := run.dumped
      paged := run.page.left run.dumped
      counted := run.paged
      chosen := run.paged
      shown := between
      folder := none
      pages := [[page]]
      renderer := run.templates.toRenderer
      languages := rfl
      scanning := rfl
      reading := h.yields_roots
      dump := rfl
      api := h.yields_apiFolder
      transforming := hpages
      counting := rfl
      choosing := rfl
      showing := hwritten
      copying := hcopied
      pages_eq := rfl
      destination_eq := rfl }
  exact ⟨page, written, run.paged, between, after, last, hpage, hwritten,
    stages.yields_generate h.prune (List.cons_ne_nil _ _), hafter⟩

end OneFile

end Usual

end CodeAtlas
