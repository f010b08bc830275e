/-
  File:      CodeAtlas/Source/File.lean
  Subject:   What is kept of a source file: package, imports, declared types.

  * `Import`: a single name or a whole package.
  * `Declaration`: a type under its name with the enclosing types before it.
  * `SourceFile`: the outline of a file; `rootRef` leads from the folder of its
    page back to the root of all pages.
-/
import CodeAtlas.Path

namespace CodeAtlas

/-- An import: the name of a type, `a.b.C`, or all of a package, `a.b.*`. -/
structure Import where
  name : Text
  deriving DecidableEq, Repr

namespace Import

/-- Whether a whole package is imported. -/
def isWildcard (spec : Import) : Bool := ['.', '*'].isSuffixOf spec.name

/-- The package that is imported, or imported from. -/
def package (spec : Import) : Text :=
  if spec.isWildcard then spec.name.take (spec.name.length - 2)
  else ((Text.cutLast? '.' spec.name).map (·.1)).getD []

/-- The simple name that is imported, unless it is a whole package. -/
def className? (spec : Import) : Option Text :=
  if spec.isWildcard then none else some (Text.afterLast '.' spec.name)

end Import

/-- A declared type: its name, with the names of the enclosing types and dots before it, the
name of its file without extension, and the line on which its name stands. -/
structure Declaration where
  name : Text
  page : Text
  line : Nat
  deriving DecidableEq, Repr

/-- The name without the enclosing types. -/
def Declaration.simpleName (declaration : Declaration) : Text :=
  Text.afterLast '.' declaration.name

/-- The number of segments of a dotted package name. -/
def packageDepth (package : Text) : Nat :=
  if package.isEmpty then 0 else (package.splitOn '.').length

/-- The folder of a package. -/
def packageFolder (package : Text) : Text := Text.swap '.' '/' package

/-- The outline of one source file. -/
structure SourceFile where
  path : Path
  package : Text
  imports : List Import
  types : List Declaration
  /-- The encoding that was asked for when the file was read. -/
  encoding : Option Text
  /-- The file name without its extension. -/
  page : Text
  deriving DecidableEq, Repr

namespace SourceFile

/-- The first declared type. -/
def primaryType? (source : SourceFile) : Option Declaration := source.types.head?

/-- The name in page titles and in links to API documentation. -/
def displayName (source : SourceFile) : Text :=
  match source.primaryType? with
  | some ⟨_, page@(_ :: _), _⟩ => page
  | _ => source.page

/-- The way from the folder of a file's page back to the root. -/
def rootRef (source : SourceFile) : Text := Text.times (packageDepth source.package) "../"

end SourceFile

end CodeAtlas
