/-
  File:      CodeAtlas/Proofs/Symbols/Lookup.lean
  Subject:   What a symbol table answers after files have been registered.

  Types and packages are both kept in lists with one entry for each name, so that
  what is said of `upsert` holds for both.

  * `SourceFile.declares?`: the declaration of a name that a file contributes, the
    last one if there are several.
  * `SymbolTable.find?_register`, `SymbolTable.find?_ofSources_eq`: a lookup asks the
    files from the last to the first.
  * `SymbolTable.EachOnce`: every package, and every type in it, stands under its name
    only once. Registering keeps it.
-/
import CodeAtlas.Proofs.Symbols.Table
import Mathlib.Data.List.Nodup

namespace CodeAtlas

/-! ## 1. Lists with one entry for each name -/

section Upsert

variable {α : Type} {key : α → Text}

/-- What takes the place of an entry has its name. -/
theorem key_replaced (entry old : α) : key (if key old == key entry then entry else old) = key old := by
  by_cases h : key old = key entry
  · simp [h]
  · simp [h]

theorem find?_map_replaced (entry : α) (entries : List α) (name : Text) :
    (entries.map fun old => if key old == key entry then entry else old).find? (key · == name) =
      (entries.find? (key · == name)).map fun old => if key old == key entry then entry else old := by
  rw [List.find?_map]
  congr 2
  funext old
  exact congrArg (· == name) (key_replaced entry old)

/-- **A lookup after an entry was put in.** -/
theorem find?_upsert (entry : α) (entries : List α) (name : Text) :
    (upsert key entry entries).find? (key · == name) =
      if key entry = name then some entry else entries.find? (key · == name) := by
  unfold upsert
  split
  · rename_i hany
    rw [find?_map_replaced]
    cases hf : entries.find? (key · == name) with
    | none =>
      have hname : key entry ≠ name := by
        rintro rfl
        obtain ⟨old, hm, hold⟩ := List.any_eq_true.mp hany
        exact List.find?_eq_none.mp hf old hm hold
      rw [if_neg hname]
      rfl
    | some old =>
      have hold : key old = name := by simpa using List.find?_some hf
      subst hold
      by_cases hname : key entry = key old
      · simp [hname]
      · simp [hname, Ne.symm hname]
  · rename_i hany
    rw [List.find?_append, List.find?_singleton]
    by_cases hname : key entry = name
    · subst hname
      have hnone : entries.find? (key · == key entry) = none := by
        rw [List.find?_eq_none]
        simpa using hany
      simp [hnone]
    · simp [hname]

theorem map_key_upsert (entry : α) (entries : List α) :
    (upsert key entry entries).map key =
      if key entry ∈ entries.map key then entries.map key else entries.map key ++ [key entry] := by
  have hany : entries.any (key · == key entry) = true ↔ key entry ∈ entries.map key := by simp
  unfold upsert
  by_cases h : key entry ∈ entries.map key
  · rw [if_pos (hany.mpr h), if_pos h, List.map_map]
    exact List.map_congr_left fun old _ => key_replaced entry old
  · rw [if_neg (mt hany.mp h), if_neg h, List.map_append, List.map_singleton]

/-- Names that stand there once still do. -/
theorem nodup_upsert {entry : α} {entries : List α} (h : (entries.map key).Nodup) :
    ((upsert key entry entries).map key).Nodup := by
  rw [map_key_upsert]
  split_ifs with hm
  · exact h
  · refine List.nodup_append.mpr ⟨h, List.nodup_singleton _, ?_⟩
    rintro x hx y hy rfl
    exact hm (List.mem_singleton.mp hy ▸ hx)

/-- Where names stand once, the entry of a name is found under it. -/
theorem find?_key_eq_some_iff {entries : List α} (h : (entries.map key).Nodup) {entry : α} :
    entries.find? (key · == key entry) = some entry ↔ entry ∈ entries := by
  constructor
  · exact List.mem_of_find?_eq_some
  · intro hm
    have hsome : (entries.find? (key · == key entry)).isSome = true :=
      List.find?_isSome.mpr ⟨entry, hm, beq_self_eq_true _⟩
    obtain ⟨found, hf⟩ := Option.isSome_iff_exists.mp hsome
    have hkey : key found = key entry := by simpa using List.find?_some hf
    rw [hf, List.inj_on_of_nodup_map h (List.mem_of_find?_eq_some hf) hm hkey]

end Upsert

/-! ## 2. Packages -/

namespace Package

/-- A lookup after declarations were added: the last of them that has the name counts. -/
theorem find?_foldl_add (package : Package) (declarations : List Declaration) (name : Text) :
    (declarations.foldl add package).find? name =
      (declarations.reverse.find? (·.name == name)).or (package.find? name) := by
  induction declarations generalizing package with
  | nil => rfl
  | cons declaration declarations ih =>
    have hadd : (package.add declaration).find? name =
        if declaration.name = name then some declaration else package.find? name := by
      unfold find?
      rw [types_add, find?_upsert]
    rw [List.foldl_cons, ih, hadd, List.reverse_cons, List.find?_append, List.find?_singleton,
      Option.or_assoc]
    by_cases h : declaration.name = name
    · simp [h]
    · simp [h]

theorem nodup_foldl_add {package : Package} (declarations : List Declaration)
    (h : (package.types.map (·.name)).Nodup) :
    ((declarations.foldl add package).types.map (·.name)).Nodup := by
  induction declarations generalizing package with
  | nil => exact h
  | cons declaration declarations ih =>
    refine ih ?_
    rw [types_add]
    exact nodup_upsert h

end Package

/-- The declaration of a name that a file contributes to a package. The last one counts. -/
def SourceFile.declares? (source : SourceFile) (package name : Text) : Option Declaration :=
  if source.package = package then source.types.reverse.find? (·.name == name) else none

/-! ## 3. Tables -/

namespace SymbolTable

theorem name_merged (table : SymbolTable) (source : SourceFile) :
    (table.merged source).name = source.package := by
  refine (Package.foldl_add_spec _ source.types).1.trans ?_
  cases h : table.package? source.package with
  | none => rfl
  | some package => exact (mem_of_package? h).2

theorem package?_register (table : SymbolTable) (source : SourceFile) (name : Text) :
    (table.register source).package? name =
      if source.package = name then some (table.merged source) else table.package? name := by
  unfold register package?
  rw [packages_put, find?_upsert, name_merged]

/-- **A lookup after one more file was registered.** -/
theorem find?_register (table : SymbolTable) (source : SourceFile) (package name : Text) :
    (table.register source).find? package name =
      (source.declares? package name).or (table.find? package name) := by
  unfold find? SourceFile.declares?
  rw [package?_register]
  by_cases h : source.package = package
  · subst h
    rw [if_pos rfl, if_pos rfl, Option.bind_some]
    unfold merged
    rw [Package.find?_foldl_add]
    cases table.package? source.package with
    | none => rfl
    | some old => rfl
  · rw [if_neg h, if_neg h, Option.none_or]

theorem find?_foldl_register (table : SymbolTable) (sources : List SourceFile)
    (package name : Text) :
    (sources.foldl register table).find? package name =
      (sources.reverse.findSome? (·.declares? package name)).or (table.find? package name) := by
  induction sources generalizing table with
  | nil => rfl
  | cons source sources ih =>
    rw [List.foldl_cons, ih, find?_register, List.reverse_cons, List.findSome?_append,
      List.findSome?_singleton, Option.or_assoc]

/-- **A lookup in the table of some files** asks them from the last to the first. -/
theorem find?_ofSources_eq (sources : List SourceFile) (package name : Text) :
    (ofSources sources).find? package name =
      sources.reverse.findSome? (·.declares? package name) := by
  unfold ofSources
  rw [find?_foldl_register]
  exact Option.or_none

theorem isSome_package?_foldl_register (table : SymbolTable) (sources : List SourceFile)
    (name : Text) :
    ((sources.foldl register table).package? name).isSome =
      (sources.any (·.package == name) || (table.package? name).isSome) := by
  induction sources generalizing table with
  | nil => rfl
  | cons source sources ih =>
    rw [List.foldl_cons, ih, package?_register, List.any_cons]
    by_cases h : source.package = name
    · simp [h]
    · rw [if_neg h, beq_eq_false_iff_ne.mpr h, Bool.false_or]

/-- The packages of a table are those of its files. -/
theorem isSome_package?_ofSources (sources : List SourceFile) (name : Text) :
    ((ofSources sources).package? name).isSome = sources.any (·.package == name) := by
  unfold ofSources
  rw [isSome_package?_foldl_register]
  exact Bool.or_false _

/-! ## 4. Each name once -/

/-- Every package, and every type in it, stands under its name only once. -/
structure EachOnce (table : SymbolTable) : Prop where
  packages : (table.packages.map (·.name)).Nodup
  types : ∀ package ∈ table.packages, (package.types.map (·.name)).Nodup

namespace EachOnce

theorem empty : EachOnce SymbolTable.empty :=
  ⟨List.nodup_nil, fun _ h => absurd h List.not_mem_nil⟩

theorem register {table : SymbolTable} (h : table.EachOnce) (source : SourceFile) :
    (table.register source).EachOnce := by
  constructor
  · unfold SymbolTable.register
    rw [packages_put]
    exact nodup_upsert h.packages
  · intro package hp
    rcases mem_packages_put hp with hp | rfl
    · exact h.types package hp
    · refine Package.nodup_foldl_add source.types ?_
      cases hold : table.package? source.package with
      | none => exact List.nodup_nil
      | some old => exact h.types old (mem_of_package? hold).1

theorem foldl {table : SymbolTable} (h : table.EachOnce) (sources : List SourceFile) :
    (sources.foldl SymbolTable.register table).EachOnce := by
  induction sources generalizing table with
  | nil => exact h
  | cons source sources ih => exact ih (h.register source)

theorem ofSources (sources : List SourceFile) : (SymbolTable.ofSources sources).EachOnce :=
  EachOnce.empty.foldl sources

variable {table : SymbolTable} (h : table.EachOnce)
include h

theorem package?_eq_some {package : Package} (hp : package ∈ table.packages) :
    table.package? package.name = some package :=
  (find?_key_eq_some_iff h.packages).mpr hp

/-- The types of a package are those that are found under their names. -/
theorem mem_types_iff {package : Package} (hp : package ∈ table.packages)
    {declaration : Declaration} :
    declaration ∈ package.types ↔
      table.find? package.name declaration.name = some declaration := by
  rw [SymbolTable.find?, h.package?_eq_some hp]
  exact (find?_key_eq_some_iff (h.types package hp)).symm

end EachOnce

end SymbolTable

end CodeAtlas
