/-
  File:      CodeAtlas/Proofs/Run/Reading.lean
  Subject:   The symbol table that a run reads.

  A run reads files through a cache and registers them one by one. Seen from
  outside this comes to reading every selected file below the roots from the tree,
  in the cache's encoding and in the language that the cache's catalog gives for
  its path.

  * `Cache.parse`: a file as a cache would read it. `Cache.Faithful`: what a cache
    holds is what it would read.
  * `Cache.parseBelow`, `SymbolTable.parsed`: all selected files below a root; the
    table of all files below roots.
  * `Survey.sourcePaths_eq_ok_iff`, `Survey.sourcePaths_error`: what a survey finds below
    a root is what a scan finds there.
  * `Work.yields_fetch_iff`, `Work.yields_process`: all that reading a file or a root
    does when it succeeds.
  * `Work.Reads`: what a part of the reading does to a desk. `reads_fetch`,
    `reads_readFiles`, `reads_process` and `reads_roots` build on each other.
  * `SymbolTable.parsed_congr`: of a language only the words that announce types
    and the file names matter, and of an encoding only the texts that it gives.
  * `Settings.readsAsFound_utf8`: settings that ask for the table that every run reads.
  * `Work.Stages`: a run that finds sources, step by step. `Work.generate_cases` takes
    every run that succeeds apart, and `Work.Stages.yields_generate` puts one together.
-/
import CodeAtlas.Proofs.Run.Blank
import CodeAtlas.Proofs.Source.Machine
import CodeAtlas.Proofs.Tree.Homes
import CodeAtlas.Proofs.Tree.Scan

namespace CodeAtlas

/-! ## 1. Reading without a cache -/

namespace Cache

section Parse

variable [Platform]

/-- The outline of a file, read in the encoding of a cache and in the language that its catalog
gives for the path. What the cache holds does not matter. -/
def parse (cache : Cache) (tree : Tree) (path : Path) : Except Failure SourceFile :=
  SourceFile.load tree path cache.encoding (cache.catalog.languageFor path)

/-- The outline of the file that a spelling of a path leads to. -/
def parseAt (cache : Cache) (tree : Tree) (path : Path) : Except Failure SourceFile :=
  (path.resolve.mapError .file).bind (cache.parse tree)

theorem parseAt_of_resolve {cache : Cache} {tree : Tree} {path key : Path}
    (h : path.resolve = .ok key) : cache.parseAt tree path = cache.parse tree key := by
  unfold parseAt
  rw [h]
  rfl

/-- The outlines of all selected files below a root, in ascending order of their paths. -/
def parseBelow (cache : Cache) (tree : Tree) (selection : Selection) (root : Path) :
    Except Failure (List SourceFile) := do
  let key ← root.resolve.mapError .file
  let paths ← tree.scan selection key
  paths.mapM fun path => cache.parseAt tree (key.join (Path.ofText path))

/-- Every outline that a cache holds is what it would read. -/
def Faithful (cache : Cache) (tree : Tree) : Prop :=
  ∀ file ∈ cache.files, cache.parse tree file.1 = .ok file.2

theorem faithful_empty (encoding : Option Text) (catalog : Catalog) (tree : Tree) :
    (Cache.empty encoding catalog).Faithful tree := fun _ h => nomatch h

/-- A cache gives the outline that it holds, or else reads it and holds it from then on. -/
theorem get_cases {cache after : Cache} {tree : Tree} {path : Path} {source : SourceFile}
    (h : cache.get tree path = .ok (source, after)) :
    ∃ key, path.resolve = .ok key ∧
      (cache.files.lookup key = some source ∧ after = cache ∨
        cache.files.lookup key = none ∧ cache.parse tree key = .ok source ∧
          after = { cache with files := cache.files ++ [(key, source)] }) := by
  unfold Cache.get at h
  cases hkey : path.resolve with
  | error fault =>
    rw [hkey] at h
    cases h
  | ok key =>
    rw [hkey] at h
    refine ⟨key, rfl, ?_⟩
    cases hfound : cache.files.lookup key with
    | some found =>
      simp only [bind, Except.bind, Except.mapError, hfound, Except.ok.injEq, Prod.mk.injEq] at h
      obtain ⟨rfl, rfl⟩ := h
      exact Or.inl ⟨rfl, rfl⟩
    | none =>
      simp only [bind, Except.bind, Except.mapError, hfound] at h
      cases hload : SourceFile.load tree key cache.encoding (cache.catalog.languageFor key) with
      | error failure =>
        rw [hload] at h
        cases h
      | ok loaded =>
        rw [hload] at h
        cases h
        exact Or.inr ⟨rfl, hload, rfl⟩

/-- A faithful cache gives what it would read, and stays faithful. -/
theorem Faithful.get {cache after : Cache} {tree : Tree} {path : Path} {source : SourceFile}
    (h : cache.Faithful tree) (hget : cache.get tree path = .ok (source, after)) :
    cache.parseAt tree path = .ok source ∧ after.Faithful tree ∧
      after.encoding = cache.encoding ∧ after.catalog = cache.catalog := by
  obtain ⟨key, hkey, ⟨hfound, rfl⟩ | ⟨-, hparse, rfl⟩⟩ := get_cases hget
  · obtain ⟨before, later, hfiles, -⟩ := List.lookup_eq_some_iff.mp hfound
    have hmem : (key, source) ∈ after.files := by
      rw [hfiles]
      exact List.mem_append_right before List.mem_cons_self
    exact ⟨(parseAt_of_resolve hkey).trans (h (key, source) hmem), h, rfl, rfl⟩
  · refine ⟨(parseAt_of_resolve hkey).trans hparse, fun file hfile => ?_, rfl, rfl⟩
    rcases List.mem_append.mp hfile with hfile | hfile
    · exact h file hfile
    · rw [List.mem_singleton.mp hfile]
      exact hparse

end Parse

end Cache

/-- The table of all selected files below roots, each read as a cache would read it. -/
def SymbolTable.parsed [Platform] (tree : Tree) (cache : Cache) (selection : Selection)
    (roots : List Path) : Except Failure SymbolTable := do
  let sources ← roots.mapM (cache.parseBelow tree selection)
  .ok (SymbolTable.ofSources sources.flatten)

/-! ## 2. Reading through the cache of a survey -/

section SourcePaths

variable [Platform] {survey : Survey} {tree : Tree} {raw : Path}

/-- What a survey finds below a root is what a scan finds, as long as no folders are nested too
deep. -/
theorem Survey.sourcePaths_eq (hscan : ∃ paths, tree.scan survey.selection raw = .ok paths) :
    ∃ root location, raw.expand = .ok root ∧ tree.locate root = .ok location ∧
      survey.sourcePaths tree raw =
        if Platform.stack.listed < tree.listedDepth location then .error (.file .tooDeep)
        else tree.scan survey.selection raw := by
  obtain ⟨paths, hpaths⟩ := hscan
  obtain ⟨root, location, hexpand, hlocate, -, -⟩ := Tree.scan_eq_ok_iff.mp hpaths
  refine ⟨root, location, hexpand, hlocate, ?_⟩
  unfold sourcePaths
  rw [hpaths, hexpand]
  simp only [bind, Except.bind, hlocate, Except.mapError]

theorem Survey.sourcePaths_eq_ok_iff {paths : List Text} :
    survey.sourcePaths tree raw = .ok paths ↔
      tree.scan survey.selection raw = .ok paths ∧ ∃ root location, raw.expand = .ok root ∧
        tree.locate root = .ok location ∧ tree.listedDepth location ≤ Platform.stack.listed := by
  cases hscan : tree.scan survey.selection raw with
  | error failure =>
    unfold sourcePaths
    rw [hscan]
    exact ⟨nofun, nofun⟩
  | ok found =>
    obtain ⟨root, location, hexpand, hlocate, heq⟩ := sourcePaths_eq ⟨found, hscan⟩
    rw [heq, hscan]
    constructor
    · intro h
      split at h
      · cases h
      · rename_i hfits
        exact ⟨h, root, location, hexpand, hlocate, Nat.not_lt.mp hfits⟩
    · rintro ⟨h, _, _, hexpand', hlocate', hfits⟩
      cases hexpand.symm.trans hexpand'
      cases hlocate.symm.trans hlocate'
      rw [if_neg (Nat.not_lt.mpr hfits), h]

/-- The files that a survey goes on to read are those that a scan finds. -/
theorem Survey.scan_of_sourcePaths {paths : List Text}
    (h : survey.sourcePaths tree raw = .ok paths) :
    tree.scan survey.selection raw = .ok paths := (sourcePaths_eq_ok_iff.mp h).1

/-- Nothing else than the scan fails, or the folders are nested too deep. -/
theorem Survey.sourcePaths_error {failure : Failure}
    (h : survey.sourcePaths tree raw = .error failure) :
    tree.scan survey.selection raw = .error failure ∨
      failure = .file .tooDeep ∧ ∃ root location, raw.expand = .ok root ∧
        tree.locate root = .ok location ∧ Platform.stack.listed < tree.listedDepth location := by
  cases hscan : tree.scan survey.selection raw with
  | error fault =>
    unfold sourcePaths at h
    rw [hscan] at h
    exact Or.inl h
  | ok found =>
    obtain ⟨root, location, hexpand, hlocate, heq⟩ := sourcePaths_eq ⟨found, hscan⟩
    rw [heq, hscan] at h
    split at h
    · rename_i hdeep
      cases h
      exact Or.inr ⟨rfl, root, location, hexpand, hlocate, hdeep⟩
    · cases h

end SourcePaths

namespace Work

theorem note_of_noFile {listener : Option Listener} (h : listener.bind (·.file) = none)
    (records : List Record) (tree : Tree) : Listener.note listener records tree = tree := by
  cases listener with
  | none => rfl
  | some listener =>
    have hfile : listener.file = none := h
    simp only [Listener.note, hfile]

section Survey

variable [Platform]

/-- A file is looked up in the cache of the survey after it is said that it is read. -/
theorem yields_fetch_iff {path : Path} {desk after : Desk} {source : SourceFile} :
    (fetch path).Yields desk source after ↔ ∃ noted cache,
      (report (Survey.readingRecords desk.survey.cache path)).Yields desk () noted ∧
      noted.survey.cache.get noted.tree path = .ok (source, cache) ∧
      after = { noted with survey := { noted.survey with cache } } := by
  unfold fetch
  simp only [yields_bind]
  constructor
  · rintro ⟨_, _, hget, _, noted, hreport, _, _, hget', ⟨found, cache⟩, _, hfound, _, _, hkeep,
      hsource⟩
    obtain ⟨rfl, rfl⟩ := yields_get.mp hget
    obtain ⟨rfl, rfl⟩ := yields_get.mp hget'
    obtain ⟨hcache, rfl⟩ := yields_ofExcept.mp hfound
    obtain rfl := yields_onSurvey.mp hkeep
    obtain ⟨rfl, rfl⟩ := yields_pure.mp hsource
    exact ⟨noted, cache, hreport, hcache, rfl⟩
  · rintro ⟨noted, cache, hreport, hcache, rfl⟩
    exact ⟨desk, desk, rfl, (), noted, hreport, noted, noted, rfl, (source, cache), noted,
      yields_ofExcept.mpr ⟨hcache, rfl⟩, (), _, yields_onSurvey.mpr rfl, rfl⟩

theorem yields_sourcePaths {root : Path} {desk after : Desk} {paths : List Text} :
    (sourcePaths root).Yields desk paths after ↔
      desk.survey.sourcePaths desk.tree root = .ok paths ∧ desk = after := by
  unfold sourcePaths
  rw [yields_bind]
  constructor
  · rintro ⟨_, _, hget, hpaths⟩
    obtain ⟨rfl, rfl⟩ := yields_get.mp hget
    exact yields_ofExcept.mp hpaths
  · exact fun h => ⟨desk, desk, yields_get.mpr ⟨rfl, rfl⟩, yields_ofExcept.mpr h⟩

/-- The desk on which the scan of a root begins. -/
def marked (key : Path) (desk : Desk) : Desk :=
  (report [Survey.scanningRecord key]).left { desk with survey := desk.survey.mark key }

theorem yields_resolve {root key : Path} {desk after : Desk} :
    (ofExcept (root.resolve.mapError .file)).Yields desk key after ↔
      root.resolve = .ok key ∧ desk = after := by
  rw [yields_ofExcept]
  cases root.resolve with
  | error fault => exact and_congr_left fun _ => ⟨nofun, nofun⟩
  | ok found =>
    show Except.ok found = Except.ok key ∧ _ ↔ _
    rw [Except.ok.injEq, Except.ok.injEq]

/-- A root that was seen is passed over; every other is marked, and the files below it are read. -/
theorem yields_process {root : Path} {desk after : Desk} {fresh : Bool} :
    (process root).Yields desk fresh after ↔ ∃ key, root.resolve = .ok key ∧
      (key ∈ desk.survey.roots ∧ fresh = false ∧ desk = after ∨
        key ∉ desk.survey.roots ∧ fresh = true ∧ ∃ paths,
          (marked key desk).survey.sourcePaths (marked key desk).tree key = .ok paths ∧
          (readFiles key paths).Yields (marked key desk) () after) := by
  unfold process
  simp only [yields_bind, yields_resolve]
  constructor
  · rintro ⟨key, _, ⟨hkey, rfl⟩, _, _, hget, h⟩
    obtain ⟨rfl, rfl⟩ := yields_get.mp hget
    refine ⟨key, hkey, ?_⟩
    split at h
    case isTrue hseen =>
      obtain ⟨rfl, rfl⟩ := yields_pure.mp h
      exact Or.inl ⟨List.contains_iff_mem.mp hseen, rfl, rfl⟩
    case isFalse hnew =>
      simp only [yields_bind] at h
      obtain ⟨_, _, hmark, _, noted, hreport, paths, _, hpaths, _, _, hfiles, hfresh⟩ := h
      obtain rfl := yields_onSurvey.mp hmark
      obtain rfl : noted = marked key desk := yields_report.mp hreport
      obtain ⟨hscan, rfl⟩ := yields_sourcePaths.mp hpaths
      obtain ⟨rfl, rfl⟩ := yields_pure.mp hfresh
      exact Or.inr ⟨fun hm => hnew (List.contains_iff_mem.mpr hm), rfl, paths, hscan, hfiles⟩
  · rintro ⟨key, hkey, hcases⟩
    refine ⟨key, desk, ⟨hkey, rfl⟩, desk, desk, rfl, ?_⟩
    rcases hcases with ⟨hseen, rfl, rfl⟩ | ⟨hnew, rfl, paths, hscan, hfiles⟩
    · rw [if_pos (List.contains_iff_mem.mpr hseen)]
      exact yields_pure.mpr ⟨rfl, rfl⟩
    · rw [if_neg fun hseen => hnew (List.contains_iff_mem.mp hseen)]
      exact yields_bind.mpr ⟨(), _, rfl, yields_bind.mpr ⟨(), marked key desk, rfl,
        yields_bind.mpr ⟨paths, _, yields_sourcePaths.mpr ⟨hscan, rfl⟩,
          yields_bind.mpr ⟨(), after, hfiles, rfl⟩⟩⟩⟩

/-- Nothing that is reported goes to a file, and the cache is faithful. -/
structure Steady (desk : Desk) : Prop where
  noFile : desk.listener.bind (·.file) = none
  faithful : desk.survey.cache.Faithful desk.tree

/-- A part of the reading: it registers `sources` and leaves alone whatever decides on how files
are read. -/
structure Reads (desk after : Desk) (sources : List SourceFile) : Prop where
  steady : Steady after
  tree : after.tree = desk.tree
  encoding : after.survey.cache.encoding = desk.survey.cache.encoding
  catalog : after.survey.cache.catalog = desk.survey.cache.catalog
  selection : after.survey.selection = desk.survey.selection
  table : after.survey.table = sources.foldl SymbolTable.register desk.survey.table

theorem Reads.refl {desk : Desk} (h : Steady desk) : Reads desk desk [] :=
  ⟨h, rfl, rfl, rfl, rfl, rfl⟩

theorem Reads.trans {desk between after : Desk} {sources more : List SourceFile}
    (h : Reads desk between sources) (h' : Reads between after more) :
    Reads desk after (sources ++ more) where
  steady := h'.steady
  tree := h'.tree.trans h.tree
  encoding := h'.encoding.trans h.encoding
  catalog := h'.catalog.trans h.catalog
  selection := h'.selection.trans h.selection
  table := by rw [h'.table, h.table, List.foldl_append]

theorem Reads.parseAt {desk after : Desk} {sources : List SourceFile}
    (h : Reads desk after sources) :
    after.survey.cache.parseAt after.tree = desk.survey.cache.parseAt desk.tree := by
  funext path
  unfold Cache.parseAt Cache.parse
  rw [h.tree, h.encoding, h.catalog]

theorem Reads.parseBelow {desk after : Desk} {sources : List SourceFile}
    (h : Reads desk after sources) :
    after.survey.cache.parseBelow after.tree after.survey.selection =
      desk.survey.cache.parseBelow desk.tree desk.survey.selection := by
  funext root
  unfold Cache.parseBelow
  rw [h.parseAt, h.tree, h.selection]

theorem reads_report {desk after : Desk} {records : List Record} {result : Unit}
    (h : Steady desk) (hstep : (report records).Yields desk result after) :
    Reads desk after [] := by
  obtain rfl := yields_report.mp hstep
  rw [note_of_noFile h.noFile]
  exact ⟨⟨h.noFile, h.faithful⟩, rfl, rfl, rfl, rfl, rfl⟩

/-- One file. -/
theorem reads_fetch {desk after : Desk} {path : Path} {source : SourceFile} (h : Steady desk)
    (hstep : (fetch path).Yields desk source after) :
    desk.survey.cache.parseAt desk.tree path = .ok source ∧ Reads desk after [] := by
  obtain ⟨noted, cache, hreport, hcache, rfl⟩ := yields_fetch_iff.mp hstep
  have hnoted := reads_report h hreport
  obtain ⟨hparse, hfaithful, hencoding, hcatalog⟩ := hnoted.steady.faithful.get hcache
  rw [hnoted.parseAt] at hparse
  refine ⟨hparse, hnoted.trans ⟨⟨hnoted.steady.noFile, hfaithful⟩, rfl, hencoding, hcatalog, ?_, rfl⟩⟩
  unfold Survey.selection
  rw [hcatalog]

/-- The files below a folder. -/
theorem reads_readFiles {desk after : Desk} {folder : Path} {paths : List Text} {result : Unit}
    (h : Steady desk) (hstep : (readFiles folder paths).Yields desk result after) :
    ∃ sources, Reads desk after sources ∧ (paths.mapM fun path =>
      desk.survey.cache.parseAt desk.tree (folder.join (Path.ofText path))) = .ok sources := by
  induction paths generalizing desk with
  | nil =>
    obtain ⟨-, rfl⟩ := yields_pure.mp hstep
    exact ⟨[], .refl h, rfl⟩
  | cons path paths ih =>
    simp only [readFiles, yields_bind] at hstep
    obtain ⟨source, fetched, hfetch, _, registered, hregister, hrest⟩ := hstep
    obtain ⟨hparse, hfetched⟩ := reads_fetch h hfetch
    obtain rfl := yields_onSurvey.mp hregister
    have hregistered : Reads fetched
        { fetched with survey := fetched.survey.register source } [source] :=
      ⟨⟨hfetched.steady.noFile, hfetched.steady.faithful⟩, rfl, rfl, rfl, rfl, rfl⟩
    have hfirst := hfetched.trans hregistered
    obtain ⟨sources, hreads, hsources⟩ := ih hfirst.steady hrest
    refine ⟨source :: sources, hfirst.trans hreads, ?_⟩
    rw [hfirst.parseAt] at hsources
    rw [List.mapM_cons, hparse, hsources]
    rfl

/-- Reading files and showing the table do not change what is found below a root. -/
theorem sourcePaths_of_readFiles {folder : Path} {paths : List Text} {desk read dumped : Desk}
    (h : Steady desk) (hread : (readFiles folder paths).Yields desk () read)
    (hdump : (report read.survey.dump).Yields read () dumped) (root : Path) :
    dumped.survey.sourcePaths dumped.tree root = desk.survey.sourcePaths desk.tree root := by
  obtain ⟨_, hreads, -⟩ := reads_readFiles h hread
  have hdumped := hreads.trans (reads_report hreads.steady hdump)
  unfold Survey.sourcePaths
  rw [hdumped.tree, hdumped.selection]

/-- A root. One that was seen before is passed over. -/
theorem reads_process {desk after : Desk} {root : Path} {fresh : Bool} (h : Steady desk)
    (hstep : (process root).Yields desk fresh after) :
    ∃ sources, Reads desk after sources ∧
      if fresh then
        desk.survey.cache.parseBelow desk.tree desk.survey.selection root = .ok sources
      else sources = [] := by
  obtain ⟨key, hkey, ⟨-, rfl, rfl⟩ | ⟨-, rfl, paths, hpaths, hfiles⟩⟩ := yields_process.mp hstep
  · exact ⟨[], .refl h, rfl⟩
  have hbegun : Reads desk { desk with survey := desk.survey.mark key } [] :=
    ⟨⟨h.noFile, h.faithful⟩, rfl, rfl, rfl, rfl, rfl⟩
  have hmarked : Reads desk (marked key desk) [] :=
    hbegun.trans (reads_report hbegun.steady
      (yields_report.mpr rfl : (report _).Yields _ () (marked key desk)))
  have hscan := Survey.scan_of_sourcePaths hpaths
  rw [hmarked.tree, hmarked.selection] at hscan
  obtain ⟨sources, hreads, hsources⟩ := reads_readFiles hmarked.steady hfiles
  rw [hmarked.parseAt] at hsources
  refine ⟨sources, hmarked.trans hreads, ?_⟩
  show desk.survey.cache.parseBelow desk.tree desk.survey.selection root = .ok sources
  unfold Cache.parseBelow
  rw [hkey]
  simp only [Except.mapError, bind, Except.bind, hscan]
  exact hsources

/-- All roots of a run. Each root that is not passed over adds the files below it. -/
theorem reads_roots {desk after : Desk} {candidates roots : List Path} (h : Steady desk)
    (hstep : (candidates.filterM process).Yields desk roots after) :
    ∃ sources, Reads desk after sources.flatten ∧
      roots.mapM (desk.survey.cache.parseBelow desk.tree desk.survey.selection) = .ok sources := by
  induction candidates generalizing desk roots with
  | nil =>
    obtain ⟨rfl, rfl⟩ := yields_pure.mp hstep
    exact ⟨[], .refl h, rfl⟩
  | cons candidate candidates ih =>
    obtain ⟨fresh, between, rest, hprocess, hrest, rfl⟩ := yields_filterM_cons.mp hstep
    obtain ⟨below, hbelow, hfresh⟩ := reads_process h hprocess
    obtain ⟨sources, hreads, hsources⟩ := ih hbelow.steady hrest
    rw [hbelow.parseBelow] at hsources
    cases fresh with
    | false =>
      obtain rfl : below = [] := hfresh
      exact ⟨sources, hbelow.trans hreads, hsources⟩
    | true =>
      refine ⟨below :: sources, hbelow.trans hreads, ?_⟩
      have hfresh : desk.survey.cache.parseBelow desk.tree desk.survey.selection candidate =
        .ok below := hfresh
      rw [if_pos rfl, List.mapM_cons, hfresh, hsources]
      rfl

end Survey

end Work

/-! ## 3. What the table depends on -/

namespace Language

/-- Two languages make the same outlines: they differ at most in their names, in the words they
highlight and in the patterns of their files. -/
structure ReadsLike (language other : Language) : Prop where
  extensions : language.extensions = other.extensions
  typeKeywords : language.typeKeywords = other.typeKeywords
  implicitImports : language.implicitImports = other.implicitImports

theorem ReadsLike.trans {language other third : Language} (h : language.ReadsLike other)
    (h' : other.ReadsLike third) : language.ReadsLike third :=
  ⟨h.1.trans h'.1, h.2.trans h'.2, h.3.trans h'.3⟩

/-- The machine of the reader looks at the words that announce types, and at nothing else. -/
theorem ReadsLike.step_eq {language other : Language} (h : language.ReadsLike other) :
    Reader.Machine.step language = Reader.Machine.step other := by
  have hafter : Reader.Awaited.after language = Reader.Awaited.after other := by
    funext keyword
    unfold Reader.Awaited.after
    rw [h.typeKeywords]
  funext page machine token
  unfold Reader.Machine.step Reader.Machine.pass
  rw [hafter]

theorem ReadsLike.outline_eq {language other : Language} (h : language.ReadsLike other)
    (page : Text) (tokens : List Token) :
    Reader.outline language page tokens = Reader.outline other page tokens := by
  rw [Reader.outline_eq_run, Reader.outline_eq_run]
  unfold Reader.Machine.run Reader.start
  rw [h.step_eq, h.implicitImports]

theorem ReadsLike.exceeds_eq {language other : Language} (h : language.ReadsLike other)
    (limit : Nat) (text : Text) :
    Reader.exceeds language limit text = Reader.exceeds other limit text := by
  have hmachine (tokens : List Token) (machine : Reader.Machine) :
      machine.exceeds language limit tokens = machine.exceeds other limit tokens := by
    induction tokens generalizing machine with
    | nil => rfl
    | cons token tokens ih =>
      unfold Reader.Machine.exceeds
      rw [ih, h.step_eq]
  unfold Reader.exceeds Reader.start
  rw [hmachine, h.implicitImports]

theorem ReadsLike.pageName_eq {language other : Language} (h : language.ReadsLike other)
    (fileName : Text) : language.pageName fileName = other.pageName fileName := by
  unfold pageName
  rw [h.extensions]

end Language

/-- The words that settings highlight do not change how files are read. -/
theorem Settings.readsLike_catalog (settings : Settings) (given : Catalog) (path : Path) :
    ((settings.catalog given).languageFor path).ReadsLike (given.languageFor path) := by
  unfold Settings.catalog
  split
  · exact ⟨rfl, rfl, rfl⟩
  · unfold Catalog.languageFor Catalog.languageFor?
    rw [List.find?_map]
    -- the extensions stay, so that the same language is found
    change Language.ReadsLike (Option.getD (Option.map _
      (given.languages.find? (·.extensions.contains (Text.lower path.suffix)))) _) _
    cases given.languages.find? (·.extensions.contains (Text.lower path.suffix)) with
    | none => exact ⟨rfl, rfl, rfl⟩
    | some language => exact ⟨rfl, rfl, rfl⟩

namespace SourceFile

/-- An outline without the name of the encoding it was read in. -/
def unencoded (source : SourceFile) : SourceFile := { source with encoding := none }

theorem unencoded_load [Platform] {tree : Tree} {path : Path} {encoding other : Option Text}
    {language like : Language} (hread : tree.readSource path (encodingOrDefault encoding) =
      tree.readSource path (encodingOrDefault other)) (hlike : language.ReadsLike like) :
    (load tree path encoding language).map unencoded =
      (load tree path other like).map unencoded := by
  have htext (text : Text) : (ofText text path language encoding).unencoded =
      (ofText text path like other).unencoded := by
    simp only [ofText, unencoded, hlike.pageName_eq, hlike.outline_eq]
  unfold load
  rw [hread]
  rcases (tree.holds path).mapError Failure.file with fault | held
  · rfl
  · cases held with
    | false => rfl
    | true =>
      rcases tree.readSource path (encodingOrDefault other) with fault | text
      · rfl
      · simp only [bind, Except.bind, hlike.exceeds_eq, Bool.not_true, Bool.false_eq_true, if_false]
        split
        · rfl
        · exact congrArg Except.ok (htext text)

end SourceFile

/-- Lists are read element by element, so what is seen of the whole is what is seen of each. -/
theorem map_mapM {ε α β γ : Type} (read : α → Except ε β) (view : β → γ) (values : List α) :
    (values.mapM read).map (List.map view) = values.mapM fun value => (read value).map view := by
  induction values with
  | nil => rfl
  | cons value values ih =>
    rw [List.mapM_cons, List.mapM_cons, ← ih]
    cases read value with
    | error fault => rfl
    | ok first => cases values.mapM read <;> rfl

theorem Cache.unencoded_parseBelow [Platform] (cache : Cache) (tree : Tree)
    (selection : Selection) (root : Path) :
    (cache.parseBelow tree selection root).map (List.map SourceFile.unencoded) = (do
      let key ← root.resolve.mapError .file
      let paths ← tree.scan selection key
      paths.mapM fun path =>
        (cache.parseAt tree (key.join (Path.ofText path))).map SourceFile.unencoded) := by
  unfold Cache.parseBelow
  cases root.resolve with
  | error fault => rfl
  | ok key =>
    simp only [Except.mapError, bind, Except.bind]
    cases tree.scan selection key with
    | error failure => rfl
    | ok paths => exact map_mapM _ _ paths

namespace SymbolTable

theorem ofSources_unencoded (sources : List SourceFile) :
    ofSources (sources.map SourceFile.unencoded) = ofSources sources := by
  unfold ofSources
  rw [List.foldl_map]
  rfl

variable [Platform]

theorem parsed_unencoded (tree : Tree) (cache : Cache) (selection : Selection)
    (roots : List Path) :
    parsed tree cache selection roots =
      (roots.mapM fun root =>
        (cache.parseBelow tree selection root).map (List.map SourceFile.unencoded)).map
          fun sources => ofSources sources.flatten := by
  unfold parsed
  rw [← map_mapM]
  cases roots.mapM (cache.parseBelow tree selection) with
  | error failure => rfl
  | ok sources =>
    have hflat : (sources.map (List.map SourceFile.unencoded)).flatten =
        sources.flatten.map SourceFile.unencoded := List.map_flatten.symm
    refine congrArg Except.ok ?_
    simp only [hflat, ofSources_unencoded]

/-- Two caches read the same table if their encodings read the same texts and their languages
make the same outlines. -/
theorem parsed_congr {tree : Tree} {cache other : Cache}
    (hread : ∀ path, tree.readSource path (encodingOrDefault cache.encoding) =
      tree.readSource path (encodingOrDefault other.encoding))
    (hlike : ∀ path, (cache.catalog.languageFor path).ReadsLike (other.catalog.languageFor path))
    (selection : Selection) (roots : List Path) :
    parsed tree cache selection roots = parsed tree other selection roots := by
  have hparse (path : Path) : (cache.parseAt tree path).map SourceFile.unencoded =
      (other.parseAt tree path).map SourceFile.unencoded := by
    unfold Cache.parseAt
    cases path.resolve with
    | error fault => rfl
    | ok key => exact SourceFile.unencoded_load (hread key) (hlike key)
  rw [parsed_unencoded, parsed_unencoded]
  simp only [Cache.unencoded_parseBelow, hparse]

end SymbolTable

/-! ## 4. The table of a run -/

namespace Settings

variable (settings : Settings) (context : RunContext) (found : Catalog)

/-- The cache that a run hands to its survey. -/
def cache : Cache := Cache.empty settings.inputEncoding (settings.catalog context.catalog)

/-- The files that a run scans, if `found` are the languages that are found where it runs. -/
def scanned : Selection :=
  (Survey.start found (settings.cache context) settings.includes settings.excludes).selection

section Configured

variable [Platform]

/-- The table that settings ask for: every file that is scanned below the roots, read in their
encoding and in the language that the languages of the run give for its path. -/
def configuredTable (tree : Tree) (roots : List Path) : Except Failure SymbolTable :=
  SymbolTable.parsed tree (settings.cache context) (settings.scanned context found) roots

/-- Settings that ask for no other reading than a survey does of its own: an encoding in which the
files are the same texts as in UTF-8, and languages that are read like those that are found. -/
structure ReadsAsFound (tree : Tree) : Prop where
  texts : ∀ path, tree.readSource path (encodingOrDefault settings.inputEncoding) =
    tree.readSource path (encodingOrDefault none)
  languages : ∀ path, (context.catalog.languageFor path).ReadsLike (found.languageFor path)

end Configured

end Settings

section Found

variable [Platform]

/-- A name for UTF-8 reads what the default reads. -/
theorem Tree.readSource_utf8 {name : Text} (hfit : NameFault.check name = .ok ())
    (hname : Encoding.named? name = some .utf8) (tree : Tree) (path : Path) :
    tree.readSource path name = tree.readSource path (encodingOrDefault none) := by
  have hfit' : NameFault.check (encodingOrDefault none) = .ok () := by decide
  have hname' : Encoding.named? (encodingOrDefault none) = some .utf8 := by cbv
  unfold Tree.readSource Tree.readText
  rw [hfit, hname, hfit', hname']

/-- Settings that name UTF-8, or no encoding, and use the languages that are found. -/
theorem Settings.readsAsFound_utf8 {settings : Settings} {context : RunContext}
    (hfit : NameFault.check (encodingOrDefault settings.inputEncoding) = .ok ())
    (hname : Encoding.named? (encodingOrDefault settings.inputEncoding) = some .utf8)
    (tree : Tree) : settings.ReadsAsFound context context.catalog tree :=
  ⟨Tree.readSource_utf8 hfit hname tree, fun _ => ⟨rfl, rfl, rfl⟩⟩

/-- Such settings get the table that they ask for from the cache that a survey starts with of its
own. -/
theorem Settings.ReadsAsFound.configuredTable_eq {settings : Settings} {context : RunContext}
    {found : Catalog} {tree : Tree} (h : settings.ReadsAsFound context found tree)
    (roots : List Path) :
    settings.configuredTable context found tree roots =
      SymbolTable.parsed tree (Cache.empty none found) (settings.scanned context found) roots :=
  SymbolTable.parsed_congr h.texts
    (fun path => (settings.readsLike_catalog context.catalog path).trans (h.languages path)) _ roots

end Found

/-- A survey starts from the cache it is given if that holds a file, or else if it is the one
that the survey takes in its place. -/
theorem Survey.cache_start_eq_iff (found : Catalog) (cache : Cache)
    (includes excludes : List Text) :
    (Survey.start found cache includes excludes).cache = cache ↔
      cache.files ≠ [] ∨ cache = Cache.empty none found := by
  have hstart : (Survey.start found cache includes excludes).cache =
      if cache.files.isEmpty then Cache.empty none found else cache := rfl
  rw [hstart]
  split
  case isTrue hempty =>
    rw [List.isEmpty_iff] at hempty
    exact ⟨fun h => Or.inr h.symm, fun h => (h.resolve_left fun hfiles => hfiles hempty).symm⟩
  case isFalse hfiles =>
    rw [List.isEmpty_iff] at hfiles
    exact ⟨fun _ => Or.inl hfiles, fun _ => rfl⟩

namespace Work

/-- The desk of a run that is about to read its roots. -/
def started (settings : Settings) (context : RunContext) (found : Catalog) (desk : Desk) : Desk :=
  { desk with
    survey := Survey.start found (settings.cache context) settings.includes settings.excludes }

section Stages

variable [Platform]

/-- A run that finds sources, step by step: the desk that each step leaves, and what it makes. -/
structure Stages (settings : Settings) (context : RunContext) (candidates : List Path)
    (desk : Desk) (result : RunResult) (after : Desk) where
  found : Catalog
  noted : Desk
  read : Desk
  dumped : Desk
  looked : Desk
  paged : Desk
  counted : Desk
  chosen : Desk
  shown : Desk
  folder : Option Path
  pages : List (List Path)
  renderer : Template.Renderer
  languages : Platform.found = .ok found
  scanning : (announce .info ("Scanning " ++ Text.ofNat candidates.length ++
    " source root(s)")).Yields (started settings context found desk) () noted
  reading : (candidates.filterM process).Yields noted result.sourceRoots read
  dump : (report read.survey.dump).Yields read () dumped
  api : (apiFolder settings).Yields dumped folder looked
  transforming : (result.sourceRoots.mapM (transformRoot (settings.catalog context.catalog)
    settings.destinationFolder
    { locale := settings.locale
      inputEncoding := settings.inputEncoding
      outputEncoding := settings.outputEncoding
      apiFolder := folder
      revision := settings.revision
      bottom := resolveFooter settings.bottom settings.inceptionYear settings.organization
        context.year })).Yields looked pages paged
  counting : (announce .info ("Transformed " ++ Text.ofNat pages.flatten.length ++
    " file(s) into " ++ settings.destinationFolder.toText)).Yields paged () counted
  choosing : (selectRenderer settings context).Yields counted renderer chosen
  showing : (writeNavigation renderer settings.destinationFolder
    { windowTitle := settings.windowTitle
      docTitle := settings.docTitle
      bottom := resolveFooter settings.bottom settings.inceptionYear settings.organization
        context.year
      outputEncoding := settings.outputEncoding }).Yields chosen result.indexPages shown
  copying : (copyStylesheet settings renderer settings.destinationFolder).Yields shown
    result.stylesheet after
  pages_eq : result.pages = pages.flatten
  destination_eq : result.destination = settings.destinationFolder

theorem yields_readRoots {found catalog : Catalog} {settings : Settings}
    {candidates roots : List Path} {desk after : Desk} :
    (readRoots found settings catalog candidates).Yields desk roots after ↔ ∃ noted read,
      (announce .info ("Scanning " ++ Text.ofNat candidates.length ++ " source root(s)")).Yields
        { desk with
          survey := Survey.start found (Cache.empty settings.inputEncoding catalog)
            settings.includes settings.excludes } () noted ∧
      (candidates.filterM process).Yields noted roots read ∧
      (report read.survey.dump).Yields read () after := by
  unfold readRoots
  simp only [yields_bind]
  constructor
  · rintro ⟨_, _, hstart, _, noted, hnoted, _, read, hread, _, _, hget, _, _, hdump, hroots⟩
    obtain rfl := yields_onSurvey.mp hstart
    obtain ⟨rfl, rfl⟩ := yields_get.mp hget
    obtain ⟨rfl, rfl⟩ := yields_pure.mp hroots
    exact ⟨noted, read, hnoted, hread, hdump⟩
  · rintro ⟨noted, read, hnoted, hread, hdump⟩
    exact ⟨(), _, yields_onSurvey.mpr rfl, (), noted, hnoted, roots, read, hread, read, read, rfl,
      (), after, hdump, rfl⟩

omit [Platform] in
theorem yields_pageOptions {settings : Settings} {bottom : Text} {options : PageOptions}
    {desk after : Desk} :
    (pageOptions settings bottom).Yields desk options after ↔ ∃ folder,
      (apiFolder settings).Yields desk folder after ∧
      options =
        { locale := settings.locale
          inputEncoding := settings.inputEncoding
          outputEncoding := settings.outputEncoding
          apiFolder := folder
          revision := settings.revision
          bottom } := by
  unfold pageOptions
  rw [yields_bind]
  constructor
  · rintro ⟨folder, _, hfolder, hoptions⟩
    obtain ⟨rfl, rfl⟩ := yields_pure.mp hoptions
    exact ⟨folder, hfolder, rfl⟩
  · rintro ⟨folder, hfolder, rfl⟩
    exact ⟨folder, after, hfolder, rfl⟩

theorem yields_finish {settings : Settings} {context : RunContext} {bottom : Text}
    {sourceRoots pages : List Path} {desk after : Desk} {result : RunResult} :
    (finish settings context bottom sourceRoots pages).Yields desk result after ↔
      ∃ counted renderer chosen indexPages shown stylesheet,
        (announce .info ("Transformed " ++ Text.ofNat pages.length ++ " file(s) into " ++
          settings.destinationFolder.toText)).Yields desk () counted ∧
        (selectRenderer settings context).Yields counted renderer chosen ∧
        (writeNavigation renderer settings.destinationFolder
          { windowTitle := settings.windowTitle
            docTitle := settings.docTitle
            bottom
            outputEncoding := settings.outputEncoding }).Yields chosen indexPages shown ∧
        (copyStylesheet settings renderer settings.destinationFolder).Yields shown
          stylesheet after ∧
        result = { destination := settings.destinationFolder, sourceRoots, pages, indexPages
                   stylesheet } := by
  unfold finish
  simp only [yields_bind]
  constructor
  · rintro ⟨_, counted, hcounted, renderer, chosen, hchosen, indexPages, shown, hshown, stylesheet,
      _, hcopied, hresult⟩
    obtain ⟨rfl, rfl⟩ := yields_pure.mp hresult
    exact ⟨counted, renderer, chosen, indexPages, shown, stylesheet, hcounted, hchosen, hshown,
      hcopied, rfl⟩
  · rintro ⟨counted, renderer, chosen, indexPages, shown, stylesheet, hcounted, hchosen, hshown,
      hcopied, rfl⟩
    exact ⟨(), counted, hcounted, renderer, chosen, hchosen, indexPages, shown, hshown, stylesheet,
      after, hcopied, rfl⟩

/-- The run without a memory, in its parts. -/
theorem generate_eq (settings : Settings) (context : RunContext) :
    generate settings context = (do
      let catalog := settings.catalog context.catalog
      let destination := settings.destinationFolder
      let candidates ← ask (·.prune (sourceEndings settings.includes catalog) settings.sourceRoots)
      if candidates.isEmpty then
        announce .warning "No source directories with sources found"
        pure { destination }
      else
        let found ← ofExcept (Platform.found.mapError .discovery)
        let roots ← readRoots found settings catalog candidates
        let bottom := resolveFooter settings.bottom settings.inceptionYear settings.organization
          context.year
        let options ← pageOptions settings bottom
        let pages ← roots.mapM (transformRoot catalog destination options)
        finish settings context bottom roots pages.flatten) := by
  simp only [generate, Scribe.generate, scribe, pure_bind]
  rfl

/-- The languages that are found, as a step. -/
theorem yields_found {desk after : Desk} {found : Catalog} :
    (ofExcept (Platform.found.mapError .discovery)).Yields desk found after ↔
      Platform.found = .ok found ∧ desk = after := by
  rw [yields_ofExcept]
  cases Platform.found with
  | error error => exact and_congr_left fun _ => ⟨nofun, nofun⟩
  | ok catalog =>
    show Except.ok catalog = Except.ok found ∧ _ ↔ _
    rw [Except.ok.injEq, Except.ok.injEq]

/-- **What a run does in order.** It looks for roots; without one it says so and ends, and else it
goes through its stages. -/
theorem generate_cases {settings : Settings} {context : RunContext} {desk after : Desk}
    {result : RunResult} (hrun : (generate settings context).Yields desk result after) :
    ∃ candidates, desk.tree.prune (sourceEndings settings.includes
        (settings.catalog context.catalog)) settings.sourceRoots = .ok candidates ∧
      (candidates = [] ∧ result = { destination := settings.destinationFolder } ∧
          (announce .warning "No source directories with sources found").Yields desk () after ∨
        candidates ≠ [] ∧ Nonempty (Stages settings context candidates desk result after)) := by
  rw [generate_eq, yields_bind] at hrun
  obtain ⟨candidates, _, hask, hrun⟩ := hrun
  obtain ⟨hprune, rfl⟩ := yields_ask.mp hask
  refine ⟨candidates, hprune, ?_⟩
  split at hrun
  case isTrue hempty =>
    obtain ⟨_, _, hannounce, hresult⟩ := yields_bind.mp hrun
    obtain ⟨rfl, rfl⟩ := yields_pure.mp hresult
    exact Or.inl ⟨List.isEmpty_iff.mp hempty, rfl, hannounce⟩
  case isFalse hsome =>
    simp only [yields_bind] at hrun
    obtain ⟨found, _, hfound, roots, dumped, hroots, options, looked, hoptions, pages, paged,
      transforming, hfinish⟩ := hrun
    obtain ⟨languages, rfl⟩ := yields_found.mp hfound
    obtain ⟨noted, read, scanning, reading, dump⟩ := yields_readRoots.mp hroots
    obtain ⟨folder, api, rfl⟩ := yields_pageOptions.mp hoptions
    obtain ⟨counted, renderer, chosen, indexPages, shown, stylesheet, counting, choosing, showing,
      copying, rfl⟩ := yields_finish.mp hfinish
    exact Or.inr ⟨fun hnil => hsome (List.isEmpty_iff.mpr hnil),
      ⟨{ found, noted, read, dumped, looked, paged, counted, chosen, shown, folder, pages, renderer
         languages, scanning, reading, dump, api, transforming, counting, choosing, showing, copying
         pages_eq := rfl, destination_eq := rfl }⟩⟩

/-- The pages of a root with one file. -/
theorem yields_transformRoot_singleton {catalog : Catalog} {destination root : Path}
    {options : PageOptions} {file : Text} {desk after : Desk} {page : Path}
    (hpaths : desk.survey.sourcePaths desk.tree root = .ok [file])
    (hpage : (transform (catalog.languageFor (root.join (Path.ofText file)))
      (root.join (Path.ofText file))
      (pagePath destination (catalog.languageFor (root.join (Path.ofText file)))
        (root.join (Path.ofText file)) file) options).Yields desk page after) :
    ([root].mapM (transformRoot catalog destination options)).Yields desk [[page]] after := by
  have hroot : (transformRoot catalog destination options root).Yields desk [page] after := by
    refine yields_bind.mpr ⟨[file], desk, yields_sourcePaths.mpr ⟨hpaths, rfl⟩, ?_⟩
    rw [List.mapM_cons]
    exact yields_bind.mpr ⟨page, _, hpage, rfl⟩
  rw [List.mapM_cons]
  exact yields_bind.mpr ⟨[page], _, hroot, rfl⟩

section Facts

variable {settings : Settings} {context : RunContext} {candidates : List Path}
  {desk after : Desk} {result : RunResult}

/-- Stages that follow each other make up a run. -/
theorem Stages.yields_generate (run : Stages settings context candidates desk result after)
    (hprune : desk.tree.prune (sourceEndings settings.includes
      (settings.catalog context.catalog)) settings.sourceRoots = .ok candidates)
    (hsome : candidates ≠ []) : (generate settings context).Yields desk result after := by
  have hresult : result =
      { destination := settings.destinationFolder
        sourceRoots := result.sourceRoots
        pages := run.pages.flatten
        indexPages := result.indexPages
        stylesheet := result.stylesheet } := by
    rw [← run.pages_eq, ← run.destination_eq]
  rw [generate_eq]
  refine yields_bind.mpr ⟨candidates, desk, yields_ask.mpr ⟨hprune, rfl⟩, ?_⟩
  rw [if_neg fun hempty => hsome (List.isEmpty_iff.mp hempty)]
  refine yields_bind.mpr ⟨run.found, desk, yields_found.mpr ⟨run.languages, rfl⟩, ?_⟩
  refine yields_bind.mpr ⟨_, run.dumped,
    yields_readRoots.mpr ⟨run.noted, run.read, run.scanning, run.reading, run.dump⟩, ?_⟩
  refine yields_bind.mpr ⟨_, run.looked, yields_pageOptions.mpr ⟨run.folder, run.api, rfl⟩, ?_⟩
  exact yields_bind.mpr ⟨run.pages, run.paged, run.transforming, yields_finish.mpr
    ⟨run.counted, run.renderer, run.chosen, _, run.shown, _, run.counting, run.choosing,
      run.showing, run.copying, hresult⟩⟩

/-- The steps that write pages keep the table. -/
theorem Stages.table_chosen (run : Stages settings context candidates desk result after) :
    run.chosen.survey.table = run.read.survey.table := by
  rw [(keepsTable_selectRenderer _ _).of_yields run.choosing,
    (keepsTable_announce _ _).of_yields run.counting,
    (Keeps.mapM (keepsTable_transformRoot _ _ _) _).of_yields run.transforming,
    (keepsTable_apiFolder _).of_yields run.api, (keepsTable_report _).of_yields run.dump]

/-- So do those that write the navigation. -/
theorem Stages.table_after (run : Stages settings context candidates desk result after) :
    after.survey.table = run.read.survey.table := by
  rw [(keepsTable_copyStylesheet _ _ _).of_yields run.copying,
    (keepsTable_writeNavigation _ _ _).of_yields run.showing, run.table_chosen]

/-- Before a run has read anything, its cache is the one without files that a survey starts with of
its own. -/
theorem steady_started {found : Catalog} (hfile : desk.listener.bind (·.file) = none) :
    Steady (started settings context found desk) :=
  ⟨hfile, Cache.faithful_empty none found desk.tree⟩

/-- The roots that are read, and the sources below them. -/
theorem Stages.reads (run : Stages settings context candidates desk result after)
    (hfile : desk.listener.bind (·.file) = none) :
    ∃ sources, Reads (started settings context run.found desk) run.read sources.flatten ∧
      result.sourceRoots.mapM ((Cache.empty none run.found).parseBelow desk.tree
        (settings.scanned context run.found)) = .ok sources := by
  have hnoted := reads_report (steady_started hfile) run.scanning
  obtain ⟨sources, hreads, hsources⟩ := reads_roots hnoted.steady run.reading
  rw [hnoted.parseBelow] at hsources
  exact ⟨sources, hnoted.trans hreads, hsources⟩

/-- The table of the roots that are read. -/
theorem Stages.parsed (run : Stages settings context candidates desk result after)
    (hfile : desk.listener.bind (·.file) = none) :
    SymbolTable.parsed desk.tree (Cache.empty none run.found)
      (settings.scanned context run.found) result.sourceRoots = .ok run.read.survey.table := by
  obtain ⟨sources, hreads, hsources⟩ := run.reads hfile
  unfold SymbolTable.parsed
  rw [hsources, hreads.table]
  rfl

end Facts

end Stages

end Work

end CodeAtlas
