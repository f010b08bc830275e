/-
  File:      CodeAtlas/Proofs/Symbols/Index.lean
  Subject:   The index lists what a symbol table holds, and nothing twice.

  Packages and classes go into the index under keys, and of two entries with one key only
  the later is kept. No two entries of a table of parsed files have one key: a name has no
  `#` in it, and no package is called as the one without a name is shown.

  * `Ascending`: every text comes before those after it, and none is there twice.
    `ascending_sortedByKey`, `sortedByKey_perm`: distinct keys are sorted, and all kept.
  * `Package.classes_perm`, `ProjectIndex.classes_perm`: the classes of a package and of the
    index are the types of the table.
  * `SourceText.lastDeclared?`: the last declaration of a name in a package.
  * `SourceText.index_lists_table`: the index of a table of parsed files.
-/
import CodeAtlas.Proofs.Symbols.Folders

namespace CodeAtlas

/-! ## 1. Sorting by keys -/

/-- Strictly ascending order by code points. -/
def Ascending (keys : List Text) : Prop := keys.Pairwise fun a b => Text.le a b = true ∧ a ≠ b

section Sorting

variable {α : Type} {entries : List (Text × α)} (h : (entries.map (·.1)).Nodup)
include h

theorem sortedByKey_perm : (sortedByKey entries).Perm entries := by
  rw [sortedByKey_eq_mergeSort h]
  exact List.mergeSort_perm entries _

/-- **Distinct keys are in strictly ascending order.** -/
theorem ascending_sortedByKey : Ascending ((sortedByKey entries).map (·.1)) := by
  have hnodup : ((sortedByKey entries).map (·.1)).Nodup :=
    ((sortedByKey_perm h).map _).nodup_iff.mpr h
  have hsorted : ((sortedByKey entries).map (·.1)).Pairwise fun a b => Text.le a b = true := by
    rw [sortedByKey_eq_mergeSort h, List.pairwise_map]
    exact pairwise_mergeSort_key (·.1) entries
  exact hsorted.and hnodup

end Sorting

/-! ## 2. The classes of a package -/

namespace Package

/-- The key of a type of a package among all classes. -/
def classKey (package : Package) (name : Text) : Text := name ++ '#' :: package.shownName

theorem map_classes_key (package : Package) :
    (package.types.map fun declaration =>
      (declaration.name, package.classEntry declaration)).map (·.1) =
        package.types.map (·.name) := by
  rw [List.map_map]
  rfl

/-- The entry of a package lists its types. -/
theorem classes_perm {package : Package} (h : (package.types.map (·.name)).Nodup) :
    package.entry.classes.Perm (package.types.map fun declaration =>
      (declaration.name, package.classEntry declaration)) :=
  sortedByKey_perm (package.map_classes_key ▸ h)

theorem ascending_classes {package : Package} (h : (package.types.map (·.name)).Nodup) :
    Ascending (package.entry.classes.map (·.1)) :=
  ascending_sortedByKey (package.map_classes_key ▸ h)

/-- The types of a package with their keys among all classes. -/
def keyedClasses (package : Package) : List (Text × ClassEntry) :=
  package.types.map fun declaration =>
    (package.classKey declaration.name, package.classEntry declaration)

theorem keyedClasses_perm {package : Package} (h : (package.types.map (·.name)).Nodup) :
    (package.entry.classes.map fun item => (package.classKey item.1, item.2)).Perm
      package.keyedClasses := by
  have hperm := (classes_perm h).map fun item => (package.classKey item.1, item.2)
  rw [List.map_map] at hperm
  exact hperm

/-- A key tells the name of the type and the name under which the package is shown. -/
theorem classKey_inj {p q : Package} {m n : Text} (hm : '#' ∉ m) (hn : '#' ∉ n)
    (h : p.classKey m = q.classKey n) : m = n ∧ p.shownName = q.shownName := by
  rcases List.append_eq_append_iff.mp h with ⟨rest, rfl, hrest⟩ | ⟨rest, rfl, hrest⟩
  · cases rest with
    | nil => exact ⟨(List.append_nil m).symm, (List.cons.inj hrest).2⟩
    | cons c rest =>
      cases (List.cons.inj hrest).1
      exact absurd (List.mem_append_right m List.mem_cons_self) hn
  · cases rest with
    | nil => exact ⟨List.append_nil n, (List.cons.inj hrest).2.symm⟩
    | cons c rest =>
      cases (List.cons.inj hrest).1
      exact absurd (List.mem_append_right n List.mem_cons_self) hm

end Package

/-! ## 3. The classes of a table -/

/-- No type of the table has a `#` in its name. -/
def SymbolTable.Plain (table : SymbolTable) : Prop :=
  ∀ package ∈ table.packages, ∀ declaration ∈ package.types, '#' ∉ declaration.name

namespace ProjectIndex

variable {table : SymbolTable} (honce : table.EachOnce)
include honce

/-- The packages of a table with the names under which they are shown. -/
theorem keyedPackages_perm (hnamed : ∀ package ∈ table.packages, package.IsNamed) :
    (ofTable table).packages.Perm
      (table.packages.map fun package => (package.shownName, package.entry)) :=
  (sortedByKey_perm (SymbolTable.nodup_shownNames honce hnamed)).trans
    ((List.mergeSort_perm table.packages _).map _)

theorem classes_of_sorted_perm :
    (table.sorted.flatMap fun package => package.entry.classes.map fun item =>
      (package.classKey item.1, item.2)).Perm (table.packages.flatMap Package.keyedClasses) := by
  have hsorted : table.sorted.Perm table.packages := List.mergeSort_perm table.packages _
  refine List.Perm.trans (List.Perm.flatMap_left _ fun package hp => ?_) (hsorted.flatMap_right _)
  exact Package.keyedClasses_perm (honce.types package (hsorted.mem_iff.mp hp))

omit honce in
/-- The classes of the index, with their keys put together. -/
theorem classes_eq (table : SymbolTable) : (ofTable table).classes =
    sortedByKey (table.sorted.flatMap fun package => package.entry.classes.map fun item =>
      (package.classKey item.1, item.2)) := by
  unfold ofTable Package.classKey
  simp only [List.append_assoc, List.singleton_append]

variable (hnamed : ∀ package ∈ table.packages, package.IsNamed) (hplain : table.Plain)
include hnamed hplain

/-- **No two types of a table have one key.** -/
theorem nodup_classKeys : ((table.packages.flatMap Package.keyedClasses).map (·.1)).Nodup := by
  rw [List.map_flatMap, List.nodup_flatMap]
  constructor
  · intro package hp
    have hkeys : package.keyedClasses.map (·.1) =
        (package.types.map (·.name)).map package.classKey := by
      unfold Package.keyedClasses
      rw [List.map_map, List.map_map]
      rfl
    rw [hkeys]
    refine (honce.types package hp).map_on fun m hm n hn hkey => ?_
    obtain ⟨_, hd, rfl⟩ := List.mem_map.mp hm
    obtain ⟨_, he, rfl⟩ := List.mem_map.mp hn
    exact (Package.classKey_inj (hplain package hp _ hd) (hplain package hp _ he) hkey).1
  · refine (List.pairwise_map.mp honce.packages).imp_of_mem fun {p q} hp hq hne => ?_
    intro key hkp hkq
    obtain ⟨_, hm, rfl⟩ := List.mem_map.mp hkp
    obtain ⟨d, hd, rfl⟩ := List.mem_map.mp hm
    obtain ⟨_, hn, hkey⟩ := List.mem_map.mp hkq
    obtain ⟨e, he, rfl⟩ := List.mem_map.mp hn
    have hshown := (Package.classKey_inj (hplain q hq e he) (hplain p hp d hd) hkey).2
    exact hne ((hnamed p hp).shownName_inj (hnamed q hq) hshown.symm)

theorem nodup_sortedKeys :
    ((table.sorted.flatMap fun package => package.entry.classes.map fun item =>
      (package.classKey item.1, item.2)).map (·.1)).Nodup :=
  ((classes_of_sorted_perm honce).map _).nodup_iff.mpr (nodup_classKeys honce hnamed hplain)

/-- **The index shows every type of a table once.** -/
theorem classes_perm :
    (ofTable table).classes.Perm (table.packages.flatMap Package.keyedClasses) := by
  rw [classes_eq]
  exact (sortedByKey_perm (nodup_sortedKeys honce hnamed hplain)).trans
    (classes_of_sorted_perm honce)

theorem ascending_classes : Ascending ((ofTable table).classes.map (·.1)) := by
  rw [classes_eq]
  exact ascending_sortedByKey (nodup_sortedKeys honce hnamed hplain)

/-- **The classes of the index are those of its packages.** -/
theorem classes_union :
    (ofTable table).classes.Perm ((ofTable table).packages.flatMap fun item =>
      item.2.classes.map fun own => (own.1 ++ '#' :: item.1, own.2)) := by
  have hpackages := (keyedPackages_perm honce hnamed).flatMap_right fun item =>
    item.2.classes.map fun own => (own.1 ++ '#' :: item.1, own.2)
  rw [List.flatMap_map] at hpackages
  refine (classes_perm honce hnamed hplain).trans (List.Perm.trans ?_ hpackages.symm)
  exact (List.Perm.flatMap_left _ fun package hp =>
    Package.keyedClasses_perm (honce.types package hp)).symm

end ProjectIndex

/-! ## 4. The index of parsed files -/

/-- What the index of a table is to show. -/
structure ProjectIndex.Lists (index : ProjectIndex) (table : SymbolTable) : Prop where
  /-- Each package once, with its folder; the one without a name is at the root. -/
  packages : (index.packages.map fun item => (item.1, item.2.name, item.2.folder)).Perm
    (table.packages.map fun package => (package.shownName, package.shownName,
      if package.name = [] then ['.'] else packageFolder package.name))
  /-- Each type of each package once, with the folder of the package and the page of the type. -/
  classes : index.classes.Perm (table.packages.flatMap fun package =>
    package.types.map fun declaration => (declaration.name ++ '#' :: package.shownName,
      ⟨declaration.name, if package.name = [] then ['.'] else packageFolder package.name,
        declaration.page⟩))
  packageKeys : Ascending (index.packages.map (·.1))
  classKeys : Ascending (index.classes.map (·.1))
  ownKeys : ∀ item ∈ index.packages, Ascending (item.2.classes.map (·.1))
  /-- The packages list together what the index lists. -/
  union : index.classes.Perm (index.packages.flatMap fun item =>
    item.2.classes.map fun own => (own.1 ++ '#' :: item.1, own.2))

namespace SourceText

/-- All declarations of files with their packages, in the order in which they are registered. -/
def registered (files : List SourceText) : List (Text × Declaration) :=
  files.flatMap fun file => file.source.types.map fun declaration =>
    (file.source.package, declaration)

/-- The last declaration of a name in a package. -/
def lastDeclared? (files : List SourceText) (package name : Text) : Option Declaration :=
  ((registered files).reverse.find? fun item => item.1 == package && item.2.name == name).map (·.2)

/-- **A table answers with the last declaration.** -/
theorem find?_table (files : List SourceText) (package name : Text) :
    (table files).find? package name = lastDeclared? files package name := by
  unfold table lastDeclared? registered
  rw [SymbolTable.find?_ofSources_eq, ← List.map_reverse, List.findSome?_map,
    List.reverse_flatMap, List.find?_flatMap, List.map_findSome?]
  congr 1
  funext file
  unfold SourceFile.declares?
  simp only [Function.comp_apply, ← List.map_reverse, List.find?_map, Option.map_map]
  by_cases h : file.source.package = package
  · simp [h, Function.comp_def]
  · have hnone : file.source.types.reverse.find? (fun _ => false) = none :=
      List.find?_eq_none.mpr fun _ _ => Bool.false_ne_true
    simp only [h, if_false, Function.comp_def, beq_eq_false_iff_ne.mpr h, Bool.false_and, hnone]
    rfl

theorem isNamed_of_mem_table {files : List SourceText} {package : Package}
    (h : package ∈ (table files).packages) : package.IsNamed := by
  refine SymbolTable.isNamed_of_mem (fun source hs => ?_) h
  obtain ⟨file, -, rfl⟩ := List.mem_map.mp hs
  exact SourceFile.package_starts _ _ _ _

/-- The names of the types of a table are words. -/
theorem isWord_of_mem_table {files : List SourceText} {package : Package}
    (h : package ∈ (table files).packages) {declaration : Declaration}
    (hd : declaration ∈ package.types) : IsWord declaration.name := by
  obtain ⟨source, hs, -, hm⟩ := SymbolTable.from_ofSources (files.map source) package h declaration hd
  obtain ⟨file, -, rfl⟩ := List.mem_map.mp hs
  exact (SourceFile.declared_ofText hm).isWord

theorem mem_names_table (files : List SourceText) (package : Text) :
    (∃ p ∈ (table files).packages, p.name = package) ↔
      ∃ file ∈ files, file.source.package = package := by
  have hsome := SymbolTable.isSome_package?_ofSources (files.map source) package
  rw [SymbolTable.package?, List.isSome_find?, List.any_map, Bool.eq_iff_iff, List.any_eq_true,
    List.any_eq_true] at hsome
  unfold table
  simpa using hsome

/-- **The index loses and doubles nothing.** It shows every package of a table of parsed files and
every type of every package once, in ascending order of their keys; a type stands there with the
page of its last declaration. -/
theorem index_lists_table (files : List SourceText) :
    (ProjectIndex.ofTable (table files)).Lists (table files) ∧
      (∀ name, (∃ package ∈ (table files).packages, package.name = name) ↔
        ∃ file ∈ files, file.source.package = name) ∧
      ∀ package ∈ (table files).packages, ∀ declaration,
        declaration ∈ package.types ↔
          lastDeclared? files package.name declaration.name = some declaration := by
  have honce : (table files).EachOnce := .ofSources (files.map source)
  have hnamed : ∀ package ∈ (table files).packages, package.IsNamed := fun _ =>
    isNamed_of_mem_table
  have hplain : (table files).Plain := fun _ hp _ hd =>
    (isWord_of_mem_table hp hd).not_mem (by decide)
  have hpackages := ProjectIndex.keyedPackages_perm honce hnamed
  refine ⟨⟨?_, ?_, ?_, ?_, ?_, ?_⟩, mem_names_table files, fun package hp declaration => ?_⟩
  · have hshown := hpackages.map fun item => (item.1, item.2.name, item.2.folder)
    rw [List.map_map] at hshown
    simpa [Package.entry, Package.folder, Function.comp_def] using hshown
  · have hkeyed : Package.keyedClasses = fun package => package.types.map fun declaration =>
        (declaration.name ++ '#' :: package.shownName,
          ⟨declaration.name, if package.name = [] then ['.'] else packageFolder package.name,
            declaration.page⟩) := by
      funext package
      simp [Package.keyedClasses, Package.classKey, Package.classEntry, Package.folder]
    rw [← hkeyed]
    exact ProjectIndex.classes_perm honce hnamed hplain
  · exact ascending_sortedByKey (SymbolTable.nodup_shownNames honce hnamed)
  · exact ProjectIndex.ascending_classes honce hnamed hplain
  · intro item hitem
    obtain ⟨package, hp, rfl⟩ := List.mem_map.mp (hpackages.mem_iff.mp hitem)
    exact Package.ascending_classes (honce.types package hp)
  · exact ProjectIndex.classes_union honce hnamed hplain
  · rw [honce.mem_types_iff hp, find?_table]

end SourceText

end CodeAtlas
