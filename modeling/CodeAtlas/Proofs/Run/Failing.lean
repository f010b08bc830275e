/-
  File:      CodeAtlas/Proofs/Run/Failing.lean
  Subject:   What a scan that fails leaves behind.

  A root counts as seen before its files are looked for. So a scan that fails leaves
  the root seen, and the table with the types of all files before the one that failed.

  * `Work.Fails`: from a desk, a step fails and leaves a desk. Together with `Yields`
    it takes runs apart, by one equivalence for each way of making a step.
  * `Cache.outline`: what a get gives, without what it does to the cache.
    `Cache.outline_get`: a get does not change what later gets give.
  * `Work.fails_readFiles`: the files before the one that fails are registered.
  * `Work.process_failed`: everything that a failed scan leaves behind.
-/
import CodeAtlas.Proofs.Pairs
import CodeAtlas.Proofs.Run.Reading

namespace CodeAtlas

open ExceptT (outcome_bind)

/-! ## 1. What gets give -/

namespace Cache

variable [Platform]

/-- The outline that a get gives. -/
def outline (cache : Cache) (tree : Tree) (path : Path) : Except Failure SourceFile :=
  (cache.get tree path).map (·.1)

/-- What a get gives: a fault of the path, the outline in the cache, or the outline that is read. -/
theorem outline_eq (cache : Cache) (tree : Tree) (path : Path) :
    cache.outline tree path =
      match path.resolve with
      | .error fault => .error (.file fault)
      | .ok key =>
        match cache.files.lookup key with
        | some source => .ok source
        | none => cache.parse tree key := by
  unfold outline get
  cases path.resolve with
  | error fault => rfl
  | ok key =>
    cases hfound : cache.files.lookup key with
    | some source => simp only [Except.map, Except.mapError, bind, Except.bind, hfound]
    | none =>
      simp only [Except.map, Except.mapError, bind, Except.bind, hfound]
      unfold parse
      cases SourceFile.load tree key cache.encoding (cache.catalog.languageFor key) <;> rfl

theorem catalog_get {cache after : Cache} {tree : Tree} {path : Path} {source : SourceFile}
    (h : cache.get tree path = .ok (source, after)) : after.catalog = cache.catalog := by
  obtain ⟨key, -, ⟨-, rfl⟩ | ⟨-, -, rfl⟩⟩ := get_cases h
  · rfl
  · rfl

/-- A get does not change what later gets give. -/
theorem outline_get {cache after : Cache} {tree : Tree} {path : Path} {source : SourceFile}
    (h : cache.get tree path = .ok (source, after)) : after.outline tree = cache.outline tree := by
  obtain ⟨first, -, ⟨-, rfl⟩ | ⟨hnone, hparse, rfl⟩⟩ := get_cases h
  · rfl
  · funext other
    rw [outline_eq, outline_eq]
    cases other.resolve with
    | error fault => rfl
    | ok key =>
      simp only [Pairs.lookup_concat]
      cases hfound : cache.files.lookup key with
      | some found => rfl
      | none =>
        by_cases hkey : key = first
        · subst hkey
          simp only [beq_self_eq_true, if_true, Option.none_or]
          exact hparse.symm
        · have hne : (key == first) = false := beq_eq_false_iff_ne.mpr hkey
          simp only [hne, Bool.false_eq_true, if_false, Option.none_or]
          rfl

end Cache

namespace Work

variable {α β : Type}

/-! ## 2. Steps that fail -/

/-- From `desk`, a step fails with `failure` and leaves `after`. -/
def Fails (step : Work α) (desk : Desk) (failure : Failure) (after : Desk) : Prop :=
  step.outcome desk = (.error failure, after)

/-- Whether a result is a failure of a kind. -/
def failsAs (kind : Failure → Bool) : Except Failure α → Bool
  | .error failure => kind failure
  | .ok _ => false

theorem exists_fails (step : Work α) (desk : Desk) (kind : Failure → Bool)
    (h : failsAs kind (step.outcome desk).1) :
    ∃ failure, step.Fails desk failure (step.left desk) ∧ kind failure := by
  unfold Fails left
  rcases hout : step.outcome desk with ⟨failure | value, after⟩
  · rw [hout] at h
    exact ⟨failure, rfl, h⟩
  · rw [hout] at h
    cases h

theorem fails_bind {step : Work α} {next : α → Work β} {desk after : Desk} {failure : Failure} :
    Fails (step >>= next) desk failure after ↔
      step.Fails desk failure after ∨ ∃ value between, step.Yields desk value between ∧
        (next value).Fails between failure after := by
  unfold Fails Yields
  rw [outcome_bind]
  rcases step.outcome desk with ⟨fault | value, between⟩
  · simp
  · simp

theorem not_fails_pure {value : α} {desk after : Desk} {failure : Failure} :
    ¬ Fails (pure value) desk failure after := fun h => nomatch h

theorem not_fails_get {desk after : Desk} {failure : Failure} :
    ¬ Fails get desk failure after := fun h => nomatch h

theorem not_fails_modify {change : Desk → Desk} {desk after : Desk} {failure : Failure} :
    ¬ Fails (modify change) desk failure after := fun h => nomatch h

theorem not_fails_report {records : List Record} {desk after : Desk} {failure : Failure} :
    ¬ Fails (report records) desk failure after := not_fails_modify

theorem not_fails_onSurvey {change : Survey → Survey} {desk after : Desk} {failure : Failure} :
    ¬ Fails (onSurvey change) desk failure after := not_fails_modify

theorem fails_ofExcept {outcome : Except Failure α} {desk after : Desk} {failure : Failure} :
    Fails (ofExcept outcome) desk failure after ↔ outcome = .error failure ∧ desk = after := by
  unfold Fails
  rw [outcome_ofExcept, Prod.mk.injEq]

/-! ## 3. Reading until a file fails -/

/-- Nothing that is reported goes to a file. -/
def Quiet (desk : Desk) : Prop := desk.listener.bind (·.file) = none

theorem tree_marked {desk : Desk} (hquiet : Quiet desk) (key : Path) :
    (marked key desk).tree = desk.tree := note_of_noFile hquiet _ _

section Reading

variable [Platform]

/-- One file that is read: its outline, and what the reading does to the desk. -/
theorem yields_fetch {path : Path} {desk after : Desk} {source : SourceFile}
    (h : (fetch path).Yields desk source after) :
    ∃ cache, after.survey = { desk.survey with cache } ∧
      cache.catalog = desk.survey.cache.catalog ∧ after.listener = desk.listener ∧
      (Quiet desk → after.tree = desk.tree ∧
        desk.survey.cache.outline desk.tree path = .ok source ∧
        cache.outline desk.tree = desk.survey.cache.outline desk.tree) := by
  obtain ⟨noted, cache, hreport, hcache, rfl⟩ := yields_fetch_iff.mp h
  obtain rfl := yields_report.mp hreport
  refine ⟨cache, rfl, Cache.catalog_get hcache, rfl, fun hquiet => ?_⟩
  have htree : Listener.note desk.listener (Survey.readingRecords desk.survey.cache path) desk.tree =
      desk.tree := note_of_noFile hquiet _ _
  simp only [htree] at hcache
  refine ⟨htree, ?_, Cache.outline_get hcache⟩
  unfold Cache.outline
  rw [hcache]
  rfl

/-- One file that is not read. -/
theorem fails_fetch {path : Path} {desk after : Desk} {failure : Failure}
    (h : (fetch path).Fails desk failure after) :
    after.survey = desk.survey ∧
      (Quiet desk → desk.survey.cache.outline desk.tree path = .error failure) := by
  unfold fetch at h
  simp only [fails_bind, not_fails_get, not_fails_report, not_fails_onSurvey, not_fails_pure,
    false_or, or_false, and_false, exists_false] at h
  obtain ⟨_, _, hget, _, _, hreport, _, _, hget', hfail⟩ := h
  obtain ⟨rfl, rfl⟩ := yields_get.mp hget
  obtain rfl := yields_report.mp hreport
  obtain ⟨rfl, rfl⟩ := yields_get.mp hget'
  obtain ⟨hcache, rfl⟩ := fails_ofExcept.mp hfail
  refine ⟨rfl, fun hquiet => ?_⟩
  have htree : Listener.note desk.listener (Survey.readingRecords desk.survey.cache path) desk.tree =
      desk.tree := note_of_noFile hquiet _ _
  simp only [htree] at hcache
  unfold Cache.outline
  rw [hcache]
  rfl

/-- Files are registered until one fails; the roots stay as they are. -/
theorem fails_readFiles {folder : Path} {paths : List Text} {desk after : Desk} {failure : Failure}
    (h : (readFiles folder paths).Fails desk failure after) :
    after.survey.roots = desk.survey.roots ∧
      (Quiet desk → ∃ read path rest sources, paths = read ++ path :: rest ∧
        (read.mapM fun path => desk.survey.cache.outline desk.tree
          (folder.join (Path.ofText path))) = .ok sources ∧
        desk.survey.cache.outline desk.tree (folder.join (Path.ofText path)) = .error failure ∧
        after.survey.table = sources.foldl SymbolTable.register desk.survey.table) := by
  induction paths generalizing desk with
  | nil => exact absurd h not_fails_pure
  | cons path paths ih =>
    simp only [readFiles, fails_bind, not_fails_onSurvey, false_or] at h
    rcases h with hfail | ⟨source, fetched, hfetch, _, registered, hregister, hrest⟩
    · obtain ⟨hsurvey, hfailed⟩ := fails_fetch hfail
      rw [hsurvey]
      exact ⟨rfl, fun hquiet => ⟨[], path, paths, [], rfl, rfl, hfailed hquiet, rfl⟩⟩
    · obtain ⟨cache, hsurvey, -, hlistener, hread⟩ := yields_fetch hfetch
      obtain rfl := yields_onSurvey.mp hregister
      obtain ⟨hroots, hlater⟩ := ih hrest
      refine ⟨?_, fun hquiet => ?_⟩
      · rw [hroots]
        show fetched.survey.roots = desk.survey.roots
        rw [hsurvey]
      · obtain ⟨htree, houtline, hsame⟩ := hread hquiet
        have hquiet' : Quiet fetched := by
          unfold Quiet
          rw [hlistener]
          exact hquiet
        obtain ⟨read, failed, rest, sources, rfl, hsources, hfailed, htable⟩ := hlater hquiet'
        -- later gets give what they would have given before
        have hgets : (fetched.survey.register source).cache.outline fetched.tree =
            desk.survey.cache.outline desk.tree := by
          show fetched.survey.cache.outline fetched.tree = _
          rw [htree, hsurvey]
          exact hsame
        refine ⟨path :: read, failed, rest, source :: sources, rfl, ?_, ?_, ?_⟩
        · simp only [hgets] at hsources
          rw [List.mapM_cons, houtline, hsources]
          rfl
        · simp only [hgets] at hfailed
          exact hfailed
        · rw [htable]
          show sources.foldl SymbolTable.register (fetched.survey.table.register source) = _
          rw [hsurvey]
          rfl

/-! ## 4. Scans that fail -/

theorem fails_sourcePaths {root : Path} {desk after : Desk} {failure : Failure} :
    (sourcePaths root).Fails desk failure after ↔
      desk.survey.sourcePaths desk.tree root = .error failure ∧ desk = after := by
  unfold sourcePaths
  simp only [fails_bind, not_fails_get, false_or]
  constructor
  · rintro ⟨_, _, hget, hpaths⟩
    obtain ⟨rfl, rfl⟩ := yields_get.mp hget
    exact fails_ofExcept.mp hpaths
  · exact fun h => ⟨desk, desk, yields_get.mpr ⟨rfl, rfl⟩, fails_ofExcept.mpr h⟩

/-- A root that was seen is passed over. -/
theorem yields_process_of_mem {root key : Path} {desk : Desk} (hkey : root.resolve = .ok key)
    (hseen : key ∈ desk.survey.roots) : (process root).Yields desk false desk :=
  yields_process.mpr ⟨key, hkey, Or.inl ⟨hseen, rfl, rfl⟩⟩

/-- A scan fails because the root has no resolved form, because its files cannot be looked for, or
because one of them cannot be read. In the last two cases the root has been marked. -/
theorem fails_process {root : Path} {desk after : Desk} {failure : Failure}
    (h : (process root).Fails desk failure after) :
    (∃ fault, root.resolve = .error fault ∧ failure = .file fault ∧ after = desk) ∨
    ∃ key, root.resolve = .ok key ∧ key ∉ desk.survey.roots ∧
      ((marked key desk).survey.sourcePaths (marked key desk).tree key = .error failure ∧
          after = marked key desk ∨
        ∃ paths, (marked key desk).survey.sourcePaths (marked key desk).tree key = .ok paths ∧
          (readFiles key paths).Fails (marked key desk) failure after) := by
  unfold process at h
  simp only [fails_bind, not_fails_get, false_or] at h
  rcases h with hunresolved | ⟨key, _, hresolved, _, _, hget, h⟩
  · obtain ⟨hfault, rfl⟩ := fails_ofExcept.mp hunresolved
    cases hroot : root.resolve with
    | ok key => rw [hroot] at hfault; cases hfault
    | error fault => rw [hroot] at hfault; cases hfault; exact Or.inl ⟨fault, rfl, rfl, rfl⟩
  · obtain ⟨hresolve, rfl⟩ := yields_resolve.mp hresolved
    obtain ⟨rfl, rfl⟩ := yields_get.mp hget
    split at h
    · exact absurd h not_fails_pure
    · rename_i hfresh
      simp only [fails_bind, not_fails_onSurvey, not_fails_report, not_fails_pure, false_or,
        or_false, and_false, exists_false] at h
      obtain ⟨_, _, hmark, _, noted, hreport, h⟩ := h
      obtain rfl := yields_onSurvey.mp hmark
      obtain rfl : noted = marked key desk := yields_report.mp hreport
      refine Or.inr ⟨key, hresolve, fun hmem => hfresh (List.contains_iff_mem.mpr hmem), ?_⟩
      rcases h with hpaths | ⟨paths, _, hpaths, hfiles⟩
      · obtain ⟨hscan, rfl⟩ := fails_sourcePaths.mp hpaths
        exact Or.inl ⟨hscan, rfl⟩
      · obtain ⟨hscan, rfl⟩ := yields_sourcePaths.mp hpaths
        exact Or.inr ⟨paths, hscan, hfiles⟩

/-- A file that cannot be read makes the scan of its root fail. -/
theorem fails_process_of_readFiles {root key : Path} {desk after : Desk} {failure : Failure}
    {paths : List Text} (hresolve : root.resolve = .ok key) (hnew : key ∉ desk.survey.roots)
    (hpaths : (marked key desk).survey.sourcePaths (marked key desk).tree key = .ok paths)
    (h : (readFiles key paths).Fails (marked key desk) failure after) :
    (process root).Fails desk failure after := by
  unfold process
  refine fails_bind.mpr (Or.inr ⟨key, desk, yields_resolve.mpr ⟨hresolve, rfl⟩, ?_⟩)
  refine fails_bind.mpr (Or.inr ⟨desk, desk, rfl, ?_⟩)
  rw [if_neg fun hseen => hnew (List.contains_iff_mem.mp hseen)]
  refine fails_bind.mpr (Or.inr ⟨(), _, rfl, fails_bind.mpr (Or.inr ⟨(), marked key desk, rfl, ?_⟩)⟩)
  exact fails_bind.mpr (Or.inr ⟨paths, _, yields_sourcePaths.mpr ⟨hpaths, rfl⟩,
    fails_bind.mpr (Or.inl h)⟩)

/-- **What a failed scan leaves behind.** Where the root has no resolved form, nothing is changed.
In every other case the root is marked as seen, so that it is never scanned again, whatever becomes
of the files; and the table has got the types of the files before the one that failed. -/
theorem process_failed {root : Path} {desk after : Desk} {failure : Failure}
    (h : (process root).Fails desk failure after) :
    (∀ fault, root.resolve = .error fault → failure = .file fault ∧ after = desk) ∧
    ∀ key, root.resolve = .ok key →
      key ∉ desk.survey.roots ∧ after.survey.roots = desk.survey.roots ++ [key] ∧
      (∀ later : Desk, later.survey.roots = after.survey.roots →
        (process root).Yields later false later) ∧
      (Quiet desk →
        (desk.survey.sourcePaths desk.tree key = .error failure ∧
          after.survey.table = desk.survey.table) ∨
        ∃ read path rest sources,
          desk.survey.sourcePaths desk.tree key = .ok (read ++ path :: rest) ∧
          (read.mapM fun path => desk.survey.cache.outline desk.tree
            (key.join (Path.ofText path))) = .ok sources ∧
          desk.survey.cache.outline desk.tree (key.join (Path.ofText path)) = .error failure ∧
          after.survey.table = sources.foldl SymbolTable.register desk.survey.table) := by
  rcases fails_process h with ⟨fault, hresolve, rfl, rfl⟩ | ⟨key, hresolve, hnew, hscan⟩
  · refine ⟨fun other hother => ?_, fun key hother => ?_⟩
    · rw [hresolve] at hother
      cases hother
      exact ⟨rfl, rfl⟩
    · rw [hresolve] at hother
      cases hother
  · have hroots : after.survey.roots = desk.survey.roots ++ [key] := by
      rcases hscan with ⟨-, rfl⟩ | ⟨paths, -, hfiles⟩
      · rfl
      · exact (fails_readFiles hfiles).1
    refine ⟨fun fault hother => ?_, fun other hother => ?_⟩
    · rw [hresolve] at hother
      cases hother
    · obtain rfl : key = other := by
        rw [hresolve] at hother
        cases hother
        rfl
      refine ⟨hnew, hroots, fun later hlater => ?_, fun hquiet => ?_⟩
      · refine yields_process_of_mem hresolve ?_
        rw [hlater, hroots]
        exact List.mem_append_right _ List.mem_cons_self
      · rw [tree_marked hquiet] at hscan
        rcases hscan with ⟨hpaths, rfl⟩ | ⟨paths, hpaths, hfiles⟩
        · exact Or.inl ⟨hpaths, rfl⟩
        · obtain ⟨read, path, rest, sources, rfl, hsources, hfailed, htable⟩ :=
            (fails_readFiles hfiles).2 hquiet
          rw [tree_marked hquiet] at hsources hfailed
          exact Or.inr ⟨read, path, rest, sources, hpaths, hsources, hfailed, htable⟩

end Reading

section Usual

attribute [local instance] Platform.usual

/-- A table that has seen nothing, without any files. -/
def freshDesk : Desk :=
  { tree := Tree.empty
    survey := Survey.start Catalog.standard (Cache.empty none Catalog.standard) [] [] }

/-- A root that is missing there. -/
def missingRoot : Path := ⟨.root, ["s".toList]⟩

/-- The root with a source file. -/
def repairedTree : Tree :=
  ⟨[(["s".toList], .folder),
    (["s".toList, "A.java".toList], .file (Encoding.utf8.encode "class A".toList))]⟩

theorem fails_missingRoot :
    (process missingRoot).Fails freshDesk (.rootMissing missingRoot)
      (marked missingRoot freshDesk) := by
  have hscan : (sourcePaths missingRoot).Fails (marked missingRoot freshDesk)
      (.rootMissing missingRoot) (marked missingRoot freshDesk) :=
    fails_sourcePaths.mpr ⟨rfl, rfl⟩
  unfold process
  exact fails_bind.mpr (Or.inr ⟨missingRoot, freshDesk, rfl, fails_bind.mpr (Or.inr ⟨freshDesk,
    freshDesk, rfl, fails_bind.mpr (Or.inr ⟨(), _, rfl, fails_bind.mpr (Or.inr ⟨(),
      marked missingRoot freshDesk, rfl, fails_bind.mpr (Or.inl hscan)⟩)⟩)⟩)⟩)

theorem process_failed_missing :
    (process missingRoot).Fails freshDesk (.rootMissing missingRoot)
        (marked missingRoot freshDesk) ∧
      (marked missingRoot freshDesk).survey.roots = freshDesk.survey.roots ++ [missingRoot] :=
  ⟨fails_missingRoot, ((process_failed fails_missingRoot).2 missingRoot rfl).2.1⟩

/-- A root that was missing is not scanned when it is there: the first scan has marked it. -/
theorem repaired_root_passed_over :
    ∃ after, (process missingRoot).Fails freshDesk (.rootMissing missingRoot) after ∧
      after.survey.roots ≠ freshDesk.survey.roots ∧
      repairedTree.hasSources [".java".toList] missingRoot = .ok true ∧
      (process missingRoot).Yields { after with tree := repairedTree } false
        { after with tree := repairedTree } ∧
      after.survey.table = SymbolTable.empty := by
  refine ⟨marked missingRoot freshDesk, fails_missingRoot, by decide, by decide, ?_, rfl⟩
  exact yields_process_of_mem (rfl : missingRoot.resolve = .ok missingRoot) List.mem_cons_self

end Usual

end Work

end CodeAtlas
