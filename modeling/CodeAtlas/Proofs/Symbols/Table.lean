/-
  File:      CodeAtlas/Proofs/Symbols/Table.lean
  Subject:   Where the types of a symbol table come from.

  * `upsert`: types and packages are both kept in lists with one entry for each name. An
    entry takes the place of the entry of its name, or goes to the end.
  * `SymbolTable.From`: every type of the table is declared by one of the files,
    in the package it stands under. Registering a file keeps it.
  * `SymbolTable.find?_ofSources`: what is found under a package and a name is
    declared by a file of that package, under that name.
-/
import CodeAtlas.Symbols.Table
import Mathlib.Data.List.Basic

namespace CodeAtlas

section Upsert

variable {α : Type}

/-- Puts an entry in the place of the entry of its name, or at the end. -/
def upsert (key : α → Text) (entry : α) (entries : List α) : List α :=
  if entries.any (key · == key entry) then
    entries.map fun old => if key old == key entry then entry else old
  else entries ++ [entry]

theorem mem_upsert {key : α → Text} {entry other : α} {entries : List α}
    (h : other ∈ upsert key entry entries) : other ∈ entries ∨ other = entry := by
  unfold upsert at h
  split at h
  · obtain ⟨old, ho, e⟩ := List.mem_map.mp h
    split at e
    · exact Or.inr e.symm
    · exact Or.inl (e ▸ ho)
  · exact (List.mem_append.mp h).imp id List.mem_singleton.mp

end Upsert

namespace Package

theorem add_name (package : Package) (declaration : Declaration) :
    (package.add declaration).name = package.name := by
  unfold add
  split <;> rfl

theorem types_add (package : Package) (declaration : Declaration) :
    (package.add declaration).types = upsert Declaration.name declaration package.types := by
  unfold add upsert
  split <;> rfl

theorem mem_types_add {package : Package} {declaration d : Declaration}
    (h : d ∈ (package.add declaration).types) : d ∈ package.types ∨ d = declaration := by
  rw [types_add] at h
  exact mem_upsert h

theorem foldl_add_spec (package : Package) (declarations : List Declaration) :
    (declarations.foldl add package).name = package.name ∧
      ∀ d ∈ (declarations.foldl add package).types, d ∈ package.types ∨ d ∈ declarations := by
  induction declarations generalizing package with
  | nil => exact ⟨rfl, fun d hd => Or.inl hd⟩
  | cons declaration declarations ih =>
    obtain ⟨hname, htypes⟩ := ih (package.add declaration)
    refine ⟨hname.trans (package.add_name declaration), fun d hd => ?_⟩
    rcases htypes d hd with hd | hd
    · rcases mem_types_add hd with hd | rfl
      · exact Or.inl hd
      · exact Or.inr List.mem_cons_self
    · exact Or.inr (List.mem_cons_of_mem declaration hd)

end Package

namespace SymbolTable

/-- Every type of the table is declared by one of the files, in the package it stands under. -/
def From (sources : List SourceFile) (table : SymbolTable) : Prop :=
  ∀ package ∈ table.packages, ∀ declaration ∈ package.types,
    ∃ source ∈ sources, source.package = package.name ∧ declaration ∈ source.types

theorem packages_put (table : SymbolTable) (package : Package) :
    (table.put package).packages = upsert Package.name package table.packages := by
  unfold put upsert
  split <;> rfl

theorem mem_packages_put {table : SymbolTable} {package other : Package}
    (h : other ∈ (table.put package).packages) : other ∈ table.packages ∨ other = package := by
  rw [packages_put] at h
  exact mem_upsert h

theorem mem_of_package? {table : SymbolTable} {name : Text} {package : Package}
    (h : table.package? name = some package) :
    package ∈ table.packages ∧ package.name = name := by
  have hname := List.find?_some h
  exact ⟨List.mem_of_find?_eq_some h, by simpa using hname⟩

/-- Registering one file. -/
theorem From.register {sources : List SourceFile} {table : SymbolTable} (h : From sources table)
    {source : SourceFile} (hs : source ∈ sources) : From sources (table.register source) := by
  intro package hp declaration hd
  rcases mem_packages_put hp with hp | rfl
  · exact h package hp declaration hd
  · -- the merged package holds what the package of that name held, and the types of the file
    have hbase : ((table.package? source.package).getD ⟨source.package, []⟩).name =
          source.package ∧
        ∀ d ∈ ((table.package? source.package).getD ⟨source.package, []⟩).types,
          ∃ other ∈ sources, other.package = source.package ∧ d ∈ other.types := by
      cases hold : table.package? source.package with
      | none => exact ⟨rfl, fun d hd => absurd hd List.not_mem_nil⟩
      | some old =>
        obtain ⟨hmem, hname⟩ := mem_of_package? hold
        refine ⟨hname, fun d hd => ?_⟩
        obtain ⟨other, ho, hpackage, hd⟩ := h old hmem d hd
        exact ⟨other, ho, hpackage.trans hname, hd⟩
    obtain ⟨hname, htypes⟩ := Package.foldl_add_spec
      ((table.package? source.package).getD ⟨source.package, []⟩) source.types
    have hmerged : (table.merged source).name = source.package := hname.trans hbase.1
    rw [hmerged]
    rcases htypes declaration hd with hd | hd
    · exact hbase.2 declaration hd
    · exact ⟨source, hs, rfl, hd⟩

/-- Registering files one after the other. -/
theorem From.foldl {sources : List SourceFile} {table : SymbolTable} (h : From sources table)
    {more : List SourceFile} (hm : ∀ source ∈ more, source ∈ sources) :
    From sources (more.foldl SymbolTable.register table) := by
  induction more generalizing table with
  | nil => exact h
  | cons source more ih =>
    exact ih (h.register (hm source List.mem_cons_self))
      fun other ho => hm other (List.mem_cons_of_mem source ho)

theorem from_ofSources (sources : List SourceFile) : From sources (ofSources sources) := by
  have hempty : From sources empty := fun package hp => absurd hp List.not_mem_nil
  exact hempty.foldl fun _ hs => hs

/-- **A type that is found is declared by a file of its package**, under the name that was looked
for. -/
theorem find?_ofSources {sources : List SourceFile} {package name : Text}
    {declaration : Declaration} (h : (ofSources sources).find? package name = some declaration) :
    ∃ source ∈ sources, source.package = package ∧ declaration ∈ source.types ∧
      declaration.name = name := by
  obtain ⟨found, hp, hf⟩ := Option.bind_eq_some_iff.mp h
  obtain ⟨hmem, hname⟩ := mem_of_package? hp
  obtain ⟨source, hs, hpackage, hd⟩ :=
    from_ofSources sources found hmem declaration (List.mem_of_find?_eq_some hf)
  have hfound := List.find?_some hf
  exact ⟨source, hs, hpackage.trans hname, hd, by simpa using hfound⟩

end SymbolTable

end CodeAtlas
