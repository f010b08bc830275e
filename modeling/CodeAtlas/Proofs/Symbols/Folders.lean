/-
  File:      CodeAtlas/Proofs/Symbols/Folders.lean
  Subject:   The folders of packages.

  * `Mode.Starts`: a word starts with a character that words start with. The
    scanner keeps it (`starts_read`), so that no package name starts with a dot.
  * `Package.way`: the names of the folders that lead to the pages of a package.
    `Package.ofText_folder`: they are the segments of its folder, seen from the root
    of all pages.
  * `ProjectIndex.packages_perm`: the index shows every package of a table once.
-/
import CodeAtlas.Proofs.Page.Addresses
import CodeAtlas.Proofs.Symbols.Agreement
import CodeAtlas.Proofs.Tree.Changes

namespace CodeAtlas

/-! ## 1. How words start -/

/-- A word whose first character is one that words start with. -/
def StartsWord (name : Text) : Prop := IsWord name ∧ ∀ c ∈ name.head?, isWordStart c = true

namespace Mode

/-- What has been read of a word starts as words do. -/
def Starts : Mode → Prop
  | .word name => StartsWord name
  | _ => True

theorem starts_start (c : Char) : (start c).2.Starts := by
  unfold start
  split_ifs with h1 h2 h3 h4
  case pos => trivial
  case pos => trivial
  case pos => trivial
  case pos =>
    refine ⟨.singleton h4, fun d hd => ?_⟩
    cases hd
    exact h4
  all_goals trivial

theorem starts_read {mode : Mode} (h : mode.Starts) (c : Char) : (mode.read c).2.Starts := by
  cases mode with
  | between => exact starts_start c
  | word name =>
    simp only [read]
    split_ifs with hc
    · obtain ⟨hword, hfirst⟩ := h
      refine ⟨hword.concat hc, ?_⟩
      rw [List.head?_append_of_ne_nil _ hword.1]
      exact hfirst
    · exact starts_start c
  | number =>
    simp only [read]
    split_ifs
    · trivial
    · exact starts_start c
  | dot =>
    simp only [read]
    split_ifs
    · trivial
    · exact starts_start c
  | slash =>
    simp only [read]
    split_ifs
    · trivial
    · trivial
    · exact starts_start c
  | literal quote body =>
    simp only [read]
    split_ifs <;> trivial
  | escape quote body =>
    simp only [read]
    split_ifs <;> trivial
  | lineComment =>
    simp only [read]
    split_ifs <;> trivial
  | blockComment star =>
    simp only [read]
    split_ifs <;> trivial

theorem Starts.sound {mode : Mode} (h : mode.Starts) : mode.Sound := by
  cases mode with
  | word name => exact h.1
  | _ => trivial

/-- A word that a character completes is the one that was being read. -/
theorem Starts.of_mem_read {mode : Mode} (h : mode.Starts) {c : Char} {name : Text}
    (hm : .word name ∈ (mode.read c).1) : StartsWord name := by
  cases (reads_read h.sound c).2 with
  | part hwords _ _ => exact absurd hm (hwords name)
  | done hwords _ =>
    obtain rfl := hwords name hm
    exact h

end Mode

namespace Token

theorem scanFrom_starts {mode : Mode} (h : mode.Starts) {line n : Nat} {text name : Text}
    (hm : (⟨.word name, n⟩ : Token) ∈ scanFrom mode line text) : StartsWord name := by
  induction text generalizing mode line with
  | nil =>
    obtain ⟨lexeme, hl, e⟩ := List.mem_map.mp hm
    cases e
    obtain rfl := Mode.pending_of_mem_rest hl
    exact h
  | cons c text ih =>
    rcases List.mem_append.mp hm with hm | hm
    · obtain ⟨lexeme, hl, e⟩ := List.mem_map.mp hm
      cases e
      exact h.of_mem_read hl
    · exact ih (Mode.starts_read h c) hm

end Token

namespace Reader

theorem steps_starts (page : Text) :
    Steps (fun token => ∀ name, token.lexeme = .word name → StartsWord name) (fun _ => True) page
      fun outline => outline.package = [] ∨ StartsWord outline.package where
  notice outline lexeme h := by
    have hkeep : (outline.notice lexeme).1.package = outline.package := by
      unfold Outline.notice
      split
      · split_ifs <;> rfl
      · rfl
    rw [hkeep]
    exact h
  package outline token name ht hlex _ := Or.inr (ht name hlex)
  imports outline name h := by
    unfold Outline.addImport
    split_ifs <;> exact h
  types outline scope token name _ _ _ h := h
  scope _ _ _ _ _ _ := trivial

end Reader

/-- **The package of a file is empty, or starts as words do.** -/
theorem SourceFile.package_starts (text : Text) (path : Path) (language : Language)
    (encoding : Option Text) :
    (ofText text path language encoding).package = [] ∨
      StartsWord (ofText text path language encoding).package := by
  refine (Reader.body_keeps (Reader.steps_starts _) false 0 trivial (Or.inl rfl) ?_).1
  intro token hm name hlex
  obtain ⟨lexeme, line⟩ := token
  cases hlex
  exact Token.scanFrom_starts (show Mode.between.Starts from trivial) hm

/-! ## 2. From packages to folders -/

namespace Package

/-- The names of the folders that lead from the root of all pages to those of a package. -/
def way (package : Package) : List Text := Path.segmentsOf package.folder

theorem isName_of_mem_way {package : Package} {segment : Text} (h : segment ∈ package.way) :
    Path.IsName segment := by
  obtain ⟨hm, hkept⟩ := List.mem_filter.mp h
  have hdot : '.' ∉ packageFolder package.name := by
    intro hdot
    obtain ⟨c, -, hc⟩ := List.mem_map.mp hdot
    split at hc
    · exact absurd hc (by decide)
    · rename_i hne
      exact hne (beq_iff_eq.mpr hc)
  simp only [Bool.and_eq_true, Bool.not_eq_true', List.isEmpty_eq_false_iff, bne_iff_ne] at hkept
  refine ⟨hkept.1, hkept.2, ?_, not_mem_of_mem_splitOn hm⟩
  rintro rfl
  exact hdot ((infix_of_mem_splitOn hm).subset List.mem_cons_self)

/-- A package name as tables have it. -/
def IsNamed (package : Package) : Prop := package.name = [] ∨ StartsWord package.name

/-- **Where the pages of a package go**, seen from the root of all pages. -/
theorem IsNamed.ofText_folder {package : Package} (h : package.IsNamed) :
    Path.ofText package.entry.folder = ⟨.relative, package.way⟩ := by
  obtain ⟨name, types⟩ := package
  rcases h with rfl | ⟨hword, hstart⟩
  · rfl
  · cases name with
    | nil => exact absurd rfl hword.1
    | cons c rest =>
      have hc : isWordStart c = true := hstart c rfl
      have hdot : (c == '.') = false := by
        rw [beq_eq_false_iff_ne]
        rintro rfl
        exact absurd hc (by decide)
      have hslash : c ≠ '/' := by
        rintro rfl
        exact absurd hc (by decide)
      have hanchor : Path.anchorOf (packageFolder (c :: rest)) = .relative := by
        simp [packageFolder, Text.swap, Path.anchorOf, beq_eq_false_iff_ne.mp hdot, hslash]
      show (⟨Path.anchorOf (packageFolder (c :: rest)), _⟩ : Path) = _
      rw [hanchor]
      rfl

/-- The name under which a package is shown tells it apart. -/
theorem IsNamed.shownName_inj {p q : Package} (hp : p.IsNamed) (hq : q.IsNamed)
    (h : p.shownName = q.shownName) : p.name = q.name := by
  have hdefault {name : Text} (hname : StartsWord name) : name ≠ defaultPackageName := by
    rintro rfl
    exact absurd (hname.2 '(' rfl) (by decide)
  have hshown {package : Package} (hne : package.name ≠ []) :
      package.shownName = package.name := by
    unfold shownName
    rw [if_neg (by simpa using hne)]
  rcases hp with hp | hp
  · rcases hq with hq | hq
    · rw [hp, hq]
    · rw [shownName, hp, hshown hq.1.1] at h
      exact absurd h.symm (hdefault hq)
  · rcases hq with hq | hq
    · rw [hshown hp.1.1, shownName, hq] at h
      exact absurd h (hdefault hp)
    · rwa [hshown hp.1.1, hshown hq.1.1] at h

end Package

/-! ## 3. From tables to the index -/

/-- Every package of a table of parsed files has a name as tables have it. -/
theorem SymbolTable.isNamed_of_mem {sources : List SourceFile}
    (hsources : ∀ source ∈ sources, source.package = [] ∨ StartsWord source.package)
    {package : Package} (h : package ∈ (ofSources sources).packages) : package.IsNamed := by
  have hsome : ((ofSources sources).package? package.name).isSome = true :=
    List.find?_isSome.mpr ⟨package, h, beq_self_eq_true _⟩
  rw [isSome_package?_ofSources] at hsome
  obtain ⟨source, hm, hname⟩ := List.any_eq_true.mp hsome
  unfold Package.IsNamed
  rw [← beq_iff_eq.mp hname]
  exact hsources source hm

/-- No two packages of a table are shown under one name. -/
theorem SymbolTable.nodup_shownNames {table : SymbolTable} (honce : table.EachOnce)
    (hnamed : ∀ package ∈ table.packages, package.IsNamed) :
    ((table.sorted.map fun package => (package.shownName, package.entry)).map (·.1)).Nodup := by
  have hsorted : table.sorted.Perm table.packages := List.mergeSort_perm table.packages _
  rw [List.map_map, List.Nodup, List.pairwise_map]
  have hnames : (table.sorted.map (·.name)).Nodup := (hsorted.map _).nodup_iff.mpr honce.packages
  refine (List.pairwise_map.mp hnames).imp_of_mem fun {p q} hp hq hne hshown => hne ?_
  exact (hnamed p (hsorted.mem_iff.mp hp)).shownName_inj (hnamed q (hsorted.mem_iff.mp hq)) hshown

/-- **The index shows every package of a table once.** -/
theorem ProjectIndex.packages_perm {table : SymbolTable} (honce : table.EachOnce)
    (hnamed : ∀ package ∈ table.packages, package.IsNamed) :
    ((ofTable table).packages.map (·.2)).Perm (table.packages.map Package.entry) := by
  have hsorted : table.sorted.Perm table.packages := List.mergeSort_perm table.packages _
  have hperm : (ofTable table).packages.Perm
      (table.sorted.map fun package => (package.shownName, package.entry)) := by
    unfold ofTable
    rw [sortedByKey_eq_mergeSort (SymbolTable.nodup_shownNames honce hnamed)]
    exact List.mergeSort_perm _ _
  have hentries := (hperm.map Prod.snd).trans ((hsorted.map _).map Prod.snd)
  rw [List.map_map] at hentries
  exact hentries

end CodeAtlas
