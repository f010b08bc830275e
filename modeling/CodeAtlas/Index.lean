/-
  File:      CodeAtlas/Index.lean
  Subject:   The packages and classes that the navigation pages list.

  * `ProjectIndex`: all packages by name, and all classes by name and package,
    each in ascending order of their keys.
  * `ProjectIndex.ofTable`: the index of a symbol table. The package without a
    name is shown under a name of its own and has its pages at the root.
-/
import CodeAtlas.Symbols.Table

namespace CodeAtlas

/-- A class in the index: its name, the folder of its package, and its page. -/
structure ClassEntry where
  name : Text
  folder : Text
  page : Text
  deriving DecidableEq, Repr

/-- A package in the index, with its classes by name. -/
structure PackageEntry where
  name : Text
  folder : Text
  /-- The way from the folder of the package back to the root. -/
  rootRef : Text
  classes : List (Text × ClassEntry)
  deriving DecidableEq, Repr

/-- Packages and classes by their keys, in ascending order. -/
structure ProjectIndex where
  packages : List (Text × PackageEntry)
  classes : List (Text × ClassEntry)
  deriving DecidableEq, Repr

/-- The name under which the package without a name is shown. -/
def defaultPackageName : Text := "(default package)"

/-- Entries in ascending order of their keys. Of two entries with one key the later counts. -/
def sortedByKey {α : Type} (entries : List (Text × α)) : List (Text × α) :=
  let last := entries.foldr (fun entry kept =>
    if kept.any (·.1 == entry.1) then kept else entry :: kept) []
  last.mergeSort fun a b => Text.le a.1 b.1

namespace Package

/-- The name under which a package is shown. -/
def shownName (package : Package) : Text :=
  if package.name.isEmpty then defaultPackageName else package.name

/-- The index entry of a type. -/
def classEntry (package : Package) (declaration : Declaration) : ClassEntry where
  name := declaration.name
  folder := if package.name.isEmpty then ['.'] else package.folder
  page := declaration.page

/-- The index entry of a package. -/
def entry (package : Package) : PackageEntry where
  name := package.shownName
  folder := if package.name.isEmpty then ['.'] else package.folder
  rootRef :=
    if package.name.isEmpty then "./" else Text.times (packageDepth package.name) "../"
  classes := sortedByKey (package.types.map fun declaration =>
    (declaration.name, package.classEntry declaration))

end Package

/-- The index of a table. Classes are told apart by their names and packages. -/
def ProjectIndex.ofTable (table : SymbolTable) : ProjectIndex where
  packages := sortedByKey (table.sorted.map fun package => (package.shownName, package.entry))
  classes := sortedByKey (table.sorted.flatMap fun package =>
    package.entry.classes.map fun (name, entry) =>
      (name ++ ['#'] ++ package.shownName, entry))

end CodeAtlas
