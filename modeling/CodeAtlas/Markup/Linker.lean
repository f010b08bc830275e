/-
  File:      CodeAtlas/Markup/Linker.lean
  Subject:   What a name in a source file refers to, and the address of its page.

  * `Linker`: a file, the symbol table, and the words of the language.
  * `Linker.scope`: the packages in which simple names are looked up.
  * `Linker.resolve?`: a qualified name, with the longest package that knows it;
    otherwise a simple name, first by imports of that name, then by scope.
  * `Linker.typeHref`, `Linker.packageHref`: addresses as seen from the file's page.
-/
import CodeAtlas.Language.Profile
import CodeAtlas.Symbols.Table

namespace CodeAtlas

/-- The page that summarises a package. -/
def packagePage : Text := "package-summary.html"

namespace Markup

/-- What is known where a file is marked up. -/
structure Linker where
  source : SourceFile
  table : SymbolTable
  reservedWords : List Text
  typeKeywords : List Text

/-- A type that a name refers to, and its package. -/
structure Target where
  package : Text
  declaration : Declaration
  deriving DecidableEq, Repr

/-- The parts before and after every dot of a text, from left to right. -/
def dotCuts : Text → List (Text × Text)
  | [] => []
  | c :: rest =>
    let inner := (dotCuts rest).map fun (before, after) => (c :: before, after)
    if c == '.' then ([], rest) :: inner else inner

namespace Linker

/-- The linker of a file in a language. -/
def ofLanguage (source : SourceFile) (table : SymbolTable) (language : Language) : Linker :=
  ⟨source, table, language.reservedWords, language.typeKeywords⟩

/-- The type of a name in a package. -/
def target? (linker : Linker) (package name : Text) : Option Target :=
  (linker.table.find? package name).map (⟨package, ·⟩)

/-- The file's own package, then the packages of its imports in order, each once. -/
def scope (linker : Linker) : List Text :=
  (linker.source.package :: linker.source.imports.map Import.package).eraseDups

/-- Reads a name as package and type, at its last dot first; a leading dot is none. -/
def qualified? (linker : Linker) (name : Text) : Option Target :=
  (dotCuts name).reverse.findSome? fun (package, type) =>
    if package.isEmpty then none else linker.target? package type

/-- The packages in which a simple name is looked up: those it is imported from, then the
scope. -/
def candidates (linker : Linker) (name : Text) : List Text :=
  (linker.source.imports.filter (·.className? == some name)).map Import.package ++ linker.scope

/-- Reads a name as the name of a type. -/
def simple? (linker : Linker) (name : Text) : Option Target :=
  (linker.candidates name).findSome? (linker.target? · name)

/-- What a name refers to. -/
def resolve? (linker : Linker) (name : Text) : Option Target :=
  linker.qualified? name <|> linker.simple? name

/-- The address of a type. -/
def typeHref (linker : Linker) (target : Target) : Text :=
  let folder := packageFolder target.package
  linker.source.rootRef ++ (if folder.isEmpty then [] else folder ++ ['/']) ++
    target.declaration.page ++ ".html#" ++ target.declaration.name

/-- The address of the summary of a package. -/
def packageHref (linker : Linker) (package : Text) : Text :=
  linker.source.rootRef ++ packageFolder package ++ "/" ++ packagePage

/-- The types whose names stand on a line. -/
def declarationsOn (linker : Linker) (line : Nat) : List Declaration :=
  linker.source.types.filter (·.line == line)

end Linker

end Markup

end CodeAtlas
