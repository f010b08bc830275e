/-
  File:      CodeAtlas/Proofs/Symbols/Agreement.lean
  Subject:   Tables that give the same answers, and the index that they have in common.

  * `SymbolTable.Agree`: two tables know the same packages, and find the same type
    under every package and name.
  * `DeclareApart`: no two different files declare the same type. Registered in any
    order, such files give tables that agree (`agree_of_perm`).
  * `SymbolTable.Agree.ofTable_eq`: tables that agree, and have each name once,
    have the same index, with its packages and classes in the same order.
-/
import CodeAtlas.Index
import CodeAtlas.Proofs.Order
import CodeAtlas.Proofs.Symbols.Lookup

namespace CodeAtlas

/-! ## 1. Tables that agree -/

namespace SymbolTable

/-- Two tables give the same answers. -/
structure Agree (a b : SymbolTable) : Prop where
  package : ∀ name, (a.package? name).isSome = (b.package? name).isSome
  type : ∀ package name, a.find? package name = b.find? package name

end SymbolTable

/-- No two different files declare a type of the same name in the same package. -/
def DeclareApart (sources : List SourceFile) : Prop :=
  ∀ a ∈ sources, ∀ b ∈ sources, a ≠ b → a.package = b.package →
    ∀ s ∈ a.types, ∀ t ∈ b.types, s.name ≠ t.name

instance (sources : List SourceFile) : Decidable (DeclareApart sources) :=
  inferInstanceAs (Decidable (∀ a ∈ sources, ∀ b ∈ sources, a ≠ b → a.package = b.package →
    ∀ s ∈ a.types, ∀ t ∈ b.types, s.name ≠ t.name))

/-- Where all that is found is the same, the order of the search does not matter. -/
theorem findSome?_eq_of_perm {α β : Type} {f : α → Option β} {a b : List α} (h : a.Perm b)
    (hf : ∀ x ∈ a, ∀ y ∈ a, ∀ u v, f x = some u → f y = some v → u = v) :
    a.findSome? f = b.findSome? f := by
  cases ha : a.findSome? f with
  | none =>
    have hb : b.findSome? f = none := by
      rw [List.findSome?_eq_none_iff] at ha ⊢
      exact fun y hy => ha y (h.mem_iff.mpr hy)
    rw [hb]
  | some u =>
    obtain ⟨x, hx, hu⟩ := List.exists_of_findSome?_eq_some ha
    cases hb : b.findSome? f with
    | none =>
      have := List.findSome?_eq_none_iff.mp hb x (h.mem_iff.mp hx)
      rw [hu] at this
      exact nomatch this
    | some v =>
      obtain ⟨y, hy, hv⟩ := List.exists_of_findSome?_eq_some hb
      rw [hf x hx y (h.mem_iff.mpr hy) u v hu hv]

theorem SourceFile.declares?_spec {source : SourceFile} {package name : Text}
    {declaration : Declaration} (h : source.declares? package name = some declaration) :
    source.package = package ∧ declaration ∈ source.types ∧ declaration.name = name := by
  unfold declares? at h
  split at h
  · rename_i hp
    have hname := List.find?_some h
    exact ⟨hp, List.mem_reverse.mp (List.mem_of_find?_eq_some h), by simpa using hname⟩
  · exact nomatch h

/-- At most one file has something to say about a type. -/
theorem DeclareApart.declares?_eq {sources : List SourceFile} (h : DeclareApart sources)
    {package name : Text} {a b : SourceFile} (ha : a ∈ sources) (hb : b ∈ sources)
    {s t : Declaration} (hs : a.declares? package name = some s)
    (ht : b.declares? package name = some t) : s = t := by
  by_cases e : a = b
  · subst e
    exact Option.some.inj (hs.symm.trans ht)
  · obtain ⟨hpa, hsm, hsn⟩ := SourceFile.declares?_spec hs
    obtain ⟨hpb, htm, htn⟩ := SourceFile.declares?_spec ht
    exact absurd (hsn.trans htn.symm) (h a ha b hb e (hpa.trans hpb.symm) s hsm t htm)

/-- **Files that declare apart give tables that agree**, in whatever order they come. -/
theorem agree_of_perm {a b : List SourceFile} (hperm : a.Perm b) (h : DeclareApart a) :
    (SymbolTable.ofSources a).Agree (SymbolTable.ofSources b) := by
  constructor
  · intro name
    rw [SymbolTable.isSome_package?_ofSources, SymbolTable.isSome_package?_ofSources]
    exact hperm.any_eq
  · intro package name
    rw [SymbolTable.find?_ofSources_eq, SymbolTable.find?_ofSources_eq]
    refine findSome?_eq_of_perm ?_ fun x hx y hy u v hu hv => ?_
    · exact (List.reverse_perm a).trans (hperm.trans (List.reverse_perm b).symm)
    · exact h.declares?_eq (List.mem_reverse.mp hx) (List.mem_reverse.mp hy) hu hv

/-! ## 2. The index of tables that agree -/

/-- Entries with distinct keys are sorted as they are: none of them takes the place of another. -/
theorem sortedByKey_eq_mergeSort {α : Type} {entries : List (Text × α)}
    (h : (entries.map (·.1)).Nodup) :
    sortedByKey entries = entries.mergeSort fun a b => Text.le a.1 b.1 := by
  have hkept : entries.foldr (fun entry kept =>
      if kept.any (·.1 == entry.1) then kept else entry :: kept) [] = entries := by
    induction entries with
    | nil => rfl
    | cons entry entries ih =>
      rw [List.map_cons, List.nodup_cons] at h
      have hany : entries.any (·.1 == entry.1) = false := by
        rw [List.any_eq_false]
        intro other hm hkey
        exact h.1 (List.mem_map.mpr ⟨other, hm, by simpa using hkey⟩)
      rw [List.foldr_cons, ih h.2, hany]
      rfl
  unfold sortedByKey
  rw [hkept]

/-- **Entries with distinct keys** are the same in any order. -/
theorem sortedByKey_eq_of_perm {α : Type} {a b : List (Text × α)} (h : a.Perm b)
    (hnodup : (a.map (·.1)).Nodup) : sortedByKey a = sortedByKey b := by
  rw [sortedByKey_eq_mergeSort hnodup, sortedByKey_eq_mergeSort ((h.map _).nodup_iff.mp hnodup)]
  exact mergeSort_eq_of_perm h hnodup

/-- Packages of one name with the same types have the same entry in the index. -/
theorem Package.entry_eq {p q : Package} (hname : p.name = q.name) (htypes : p.types.Perm q.types)
    (hnodup : (p.types.map (·.name)).Nodup) : p.entry = q.entry := by
  obtain ⟨name, types⟩ := p
  cases hname
  have hclasses : sortedByKey (types.map fun declaration =>
        (declaration.name, (⟨q.name, types⟩ : Package).classEntry declaration)) =
      sortedByKey (q.types.map fun declaration =>
        (declaration.name, q.classEntry declaration)) := by
    refine sortedByKey_eq_of_perm (htypes.map _) ?_
    rw [List.map_map]
    exact hnodup
  unfold Package.entry
  rw [hclasses]
  rfl

namespace SymbolTable.Agree

variable {a b : SymbolTable} (h : a.Agree b) (ha : a.EachOnce) (hb : b.EachOnce)
include h

theorem symm : b.Agree a :=
  ⟨fun name => (h.package name).symm, fun package name => (h.type package name).symm⟩

theorem mem_names {name : Text} (hm : name ∈ a.packages.map (·.name)) :
    name ∈ b.packages.map (·.name) := by
  obtain ⟨package, hp, rfl⟩ := List.mem_map.mp hm
  have hsome : (a.package? package.name).isSome = true :=
    List.find?_isSome.mpr ⟨package, hp, beq_self_eq_true _⟩
  rw [h.package] at hsome
  obtain ⟨other, ho⟩ := Option.isSome_iff_exists.mp hsome
  obtain ⟨hmem, hname⟩ := mem_of_package? ho
  exact List.mem_map.mpr ⟨other, hmem, hname⟩

include ha hb

/-- The packages of one name have the same types. -/
theorem types_perm {p q : Package} (hp : p ∈ a.packages) (hq : q ∈ b.packages)
    (hname : p.name = q.name) : p.types.Perm q.types := by
  refine (List.perm_ext_iff_of_nodup (ha.types p hp).of_map (hb.types q hq).of_map).mpr ?_
  intro declaration
  rw [ha.mem_types_iff hp, hb.mem_types_iff hq, h.type, hname]

/-- The names of the packages in ascending order. -/
theorem map_name_sorted : a.sorted.map (·.name) = b.sorted.map (·.name) := by
  have hperm : (a.packages.map (·.name)).Perm (b.packages.map (·.name)) :=
    (List.perm_ext_iff_of_nodup ha.packages hb.packages).mpr
      fun name => ⟨h.mem_names, h.symm.mem_names⟩
  have hsorted : ∀ table : SymbolTable, (table.sorted.map (·.name)).Pairwise
        (fun x y => Text.le x y = true) ∧
      (table.sorted.map (·.name)).Perm (table.packages.map (·.name)) := fun table =>
    ⟨List.pairwise_map.mpr (pairwise_mergeSort_key (·.name) table.packages),
      (List.mergeSort_perm table.packages _).map _⟩
  refine List.Perm.eq_of_pairwise (fun x y _ _ => Text.le_antisymm) (hsorted a).1 (hsorted b).1 ?_
  exact (hsorted a).2.trans (hperm.trans (hsorted b).2.symm)

/-- **What packages show, in the order of their names**, is the same as long as it does not tell
in which order their types were added. -/
theorem map_sorted {β : Type} {f : Package → β}
    (hf : ∀ p q : Package, p.name = q.name → p.types.Perm q.types →
      (p.types.map (·.name)).Nodup → f p = f q) :
    a.sorted.map f = b.sorted.map f := by
  refine map_eq_of_map_key_eq (h.map_name_sorted ha hb) fun p hp q hq hname => ?_
  have hpa : p ∈ a.packages := (List.mergeSort_perm _ _).mem_iff.mp hp
  have hqb : q ∈ b.packages := (List.mergeSort_perm _ _).mem_iff.mp hq
  exact hf p q hname (h.types_perm ha hb hpa hqb hname) (ha.types p hpa)

/-- **Tables that agree have the same index.** -/
theorem ofTable_eq : ProjectIndex.ofTable a = ProjectIndex.ofTable b := by
  have hshown : ∀ p q : Package, p.name = q.name → p.types.Perm q.types →
      (p.types.map (·.name)).Nodup → p.shownName = q.shownName ∧ p.entry = q.entry := by
    intro p q hname htypes hnodup
    exact ⟨by rw [Package.shownName, Package.shownName, hname],
      Package.entry_eq hname htypes hnodup⟩
  unfold ProjectIndex.ofTable
  rw [List.flatMap_def, List.flatMap_def, h.map_sorted ha hb ?_, h.map_sorted ha hb ?_]
  · intro p q hname htypes hnodup
    obtain ⟨hs, he⟩ := hshown p q hname htypes hnodup
    rw [hs, he]
  · intro p q hname htypes hnodup
    obtain ⟨hs, he⟩ := hshown p q hname htypes hnodup
    rw [hs, he]

end SymbolTable.Agree

end CodeAtlas
