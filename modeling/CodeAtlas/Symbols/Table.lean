/-
  File:      CodeAtlas/Symbols/Table.lean
  Subject:   Packages and the types they declare.

  * `Package`: the types of one package in the order they first appeared; a
    later declaration of the same name takes the place of the earlier one.
  * `SymbolTable`: the packages of a project by name.
  * `SymbolTable.register`: adds the types of a file to the package it names.
-/
import CodeAtlas.Source.File

namespace CodeAtlas

/-- A package and its types, each name once. -/
structure Package where
  name : Text
  types : List Declaration
  deriving DecidableEq, Repr

namespace Package

/-- Adds a type, in the place of a type of the same name if there is one. -/
def add (package : Package) (declaration : Declaration) : Package :=
  if package.types.any (·.name == declaration.name) then
    { package with types := package.types.map fun old =>
        if old.name == declaration.name then declaration else old }
  else { package with types := package.types ++ [declaration] }

/-- The type of a name. -/
def find? (package : Package) (name : Text) : Option Declaration :=
  package.types.find? (·.name == name)

/-- The folder of the package's pages. -/
def folder (package : Package) : Text := packageFolder package.name

end Package

/-- The packages of a project, each name once. -/
structure SymbolTable where
  packages : List Package
  deriving DecidableEq, Repr

namespace SymbolTable

/-- The table without packages. -/
def empty : SymbolTable := ⟨[]⟩

/-- The package of a name. -/
def package? (table : SymbolTable) (name : Text) : Option Package :=
  table.packages.find? (·.name == name)

/-- Puts a package, in the place of a package of the same name if there is one. -/
def put (table : SymbolTable) (package : Package) : SymbolTable :=
  if table.packages.any (·.name == package.name) then
    ⟨table.packages.map fun old => if old.name == package.name then package else old⟩
  else ⟨table.packages ++ [package]⟩

/-- The packages in ascending order of their names. -/
def sorted (table : SymbolTable) : List Package :=
  table.packages.mergeSort fun a b => Text.le a.name b.name

/-- The type of a name in the package of a name. -/
def find? (table : SymbolTable) (package name : Text) : Option Declaration :=
  (table.package? package).bind (·.find? name)

/-- The package that a file belongs to, with the types of the file added to it. -/
def merged (table : SymbolTable) (source : SourceFile) : Package :=
  source.types.foldl Package.add ((table.package? source.package).getD ⟨source.package, []⟩)

/-- Adds the types of a file to its package, which exists from then on. -/
def register (table : SymbolTable) (source : SourceFile) : SymbolTable :=
  table.put (table.merged source)

/-- The table of some files, registered in order. -/
def ofSources (sources : List SourceFile) : SymbolTable := sources.foldl register empty

end SymbolTable

end CodeAtlas
