/-
  File:      CodeAtlas/Proofs/Run/Table.lean
  Subject:   The table that the pages and the navigation of a run are made from.

  It is not read in the encoding of the settings: the survey of a run does not use the
  cache that it is given, because that one holds no files yet.

  * `Work.table_of_generate`: the table of every run.
  * `Work.table_not_configured`: a run whose settings ask for another table.
-/
import CodeAtlas.Proofs.Run.OneFile

namespace CodeAtlas

/-! ## 1. The table of every run -/

namespace Work

/-- **The table of a run.** Whatever encoding and languages a run is given, the table that its
pages and its navigation are made from is read in UTF-8 and with the languages that are found
where it runs: the survey does not use a cache without files. That is the table the settings ask
for if the files are the same texts in their encoding, and their languages are read like those
that are found. -/
theorem table_of_generate [Platform] {settings : Settings} {context : RunContext}
    {desk after : Desk} {result : RunResult} (hfile : desk.listener.bind (·.file) = none)
    (hrun : (generate settings context).Yields desk result after)
    (hroots : result.sourceRoots ≠ []) :
    ∃ found, Platform.found = .ok found ∧
      SymbolTable.parsed desk.tree (Cache.empty none found) (settings.scanned context found)
        result.sourceRoots = .ok after.survey.table ∧
      (settings.ReadsAsFound context found desk.tree →
        settings.configuredTable context found desk.tree result.sourceRoots =
          .ok after.survey.table) ∧
      ∀ cache includes excludes, (Survey.start found cache includes excludes).cache = cache ↔
        cache.files ≠ [] ∨ cache = Cache.empty none found := by
  obtain ⟨candidates, -, ⟨-, rfl, -⟩ | ⟨-, ⟨run⟩⟩⟩ := generate_cases hrun
  · exact absurd rfl hroots
  have hparsed := run.parsed hfile
  rw [← run.table_after] at hparsed
  refine ⟨run.found, run.languages, hparsed, fun hsame => ?_, Survey.cache_start_eq_iff run.found⟩
  rw [hsame.configuredTable_eq]
  exact hparsed

end Work

/-! ## 2. A run in another encoding -/

section Latin

attribute [local instance] Platform.usual

/-- A root with one file, the declaration of a class. -/
def latinRoot : Path := ⟨.root, ["s".toList]⟩

/-- The root, and a folder of blank templates. The name of the class is one letter in UTF-8 and
two in Latin-1. -/
def latinTree : Tree :=
  ⟨(["s".toList], .folder) ::
    (["s".toList, "A.java".toList], .file [0x63, 0x6c, 0x61, 0x73, 0x73, 0x20, 0xC3, 0xB5]) ::
    blankTemplates⟩

/-- Settings that name Latin-1. -/
def latinSettings : Settings :=
  { root := ⟨.root, []⟩
    sourceFolders := [latinRoot]
    inputEncoding := some "latin-1".toList
    api := { enabled := false } }

/-- The table of the class in UTF-8. -/
def latinTable : SymbolTable := ⟨[⟨[], [⟨"õ".toList, "A".toList, 1⟩]⟩]⟩

/-- The run over this file. -/
def latin : OneFile where
  settings := latinSettings
  tree := latinTree
  root := latinRoot
  file := "A.java".toList

theorem latin_scan :
    latinTree.scan (latinSettings.scanned blankContext Catalog.standard) latinRoot =
      .ok ["A.java".toList] := by
  cbv

theorem latin_goes : latin.Goes latinTable [['.']] where
  prune := eq_ok_of_toOption (by decide +kernel)
  resolve := rfl
  paths := latin_scan
  reads := by decide +kernel
  api := rfl
  pages := by decide +kernel
  shows := by decide +kernel
  lists := by cbv
  copies := by decide +kernel
  sheet := rfl

namespace Work

/-- The run succeeds, and its table is that of UTF-8. -/
theorem latin_generate :
    ∃ result after, (generate latinSettings blankContext).Yields (firstDesk none latinTree) result
        after ∧
      result.sourceRoots = [latinRoot] ∧ after.survey.table = latinTable := by
  obtain ⟨_, _, _, _, after, _, -, -, hrun, htable, -⟩ := latin_goes.yields_generate
  exact ⟨_, after, hrun, rfl, htable⟩

theorem table_of_generate_latin :
    ∃ result after, (generate latinSettings blankContext).Yields (firstDesk none latinTree) result
        after ∧
      SymbolTable.parsed latinTree (Cache.empty none Catalog.standard)
        (latinSettings.scanned blankContext Catalog.standard) result.sourceRoots =
          .ok after.survey.table := by
  obtain ⟨result, after, hrun, hroots, -⟩ := latin_generate
  have hsome : result.sourceRoots ≠ [] := by
    rw [hroots]
    exact List.cons_ne_nil latinRoot []
  obtain ⟨found, hfound, hparsed, -⟩ := table_of_generate rfl hrun hsome
  cases hfound
  exact ⟨result, after, hrun, hparsed⟩

/-- The settings ask for Latin-1, in which the class has another name. -/
theorem table_not_configured :
    ∃ result after, (generate latinSettings blankContext).Yields (firstDesk none latinTree) result
        after ∧
      after.survey.table = latinTable ∧
      latinSettings.configuredTable blankContext Catalog.standard latinTree result.sourceRoots =
        .ok ⟨[⟨[], [⟨"Ãµ".toList, "A".toList, 1⟩]⟩]⟩ := by
  obtain ⟨result, after, hrun, hroots, htable⟩ := latin_generate
  refine ⟨result, after, hrun, htable, ?_⟩
  let source : SourceFile :=
    ⟨⟨.root, ["s".toList, "A.java".toList]⟩, [], [⟨"java.lang.*".toList⟩],
      [⟨"Ãµ".toList, "A".toList, 1⟩], latinSettings.inputEncoding, "A".toList⟩
  have hparse : (latinSettings.cache blankContext).parseAt latinTree
      (latinRoot.join (Path.ofText "A.java".toList)) = .ok source :=
    eq_ok_of_toOption (by decide +kernel)
  have hbelow : (latinSettings.cache blankContext).parseBelow latinTree
      (latinSettings.scanned blankContext Catalog.standard) latinRoot = .ok [source] := by
    have hkey : latinRoot.resolve = .ok latinRoot := rfl
    have hfiles : (["A.java".toList].mapM fun path => (latinSettings.cache blankContext).parseAt
        latinTree (latinRoot.join (Path.ofText path))) = .ok [source] := by
      rw [List.mapM_cons, hparse]
      rfl
    unfold Cache.parseBelow
    rw [hkey]
    simp only [Except.mapError, bind, Except.bind, latin_scan]
    exact hfiles
  unfold Settings.configuredTable SymbolTable.parsed
  rw [hroots, List.mapM_cons, hbelow]
  rfl

end Work

end Latin

end CodeAtlas
