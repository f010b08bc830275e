/-
  File:      CodeAtlas/Survey.lean
  Subject:   Symbol tables under construction.

  * `Survey`: a symbol table under construction, with the cache that files are
    read through, the patterns that select them, and the roots already seen.
  * `Survey.sourcePaths`: the files below a root that go into the table.
  * `Survey.scanningRecord`, `Survey.readingRecords`, `Survey.dump`: what is
    reported about the work.
-/
import CodeAtlas.Cache
import CodeAtlas.Log
import CodeAtlas.Scan
import CodeAtlas.Symbols.Table

namespace CodeAtlas

/-- A symbol table under construction. -/
structure Survey where
  cache : Cache
  includes : List Text
  excludes : List Text
  table : SymbolTable
  /-- The resolved roots whose scan has begun. -/
  roots : List Path

namespace Survey

/-- A new survey. A cache that holds no files is not used: the survey then starts from a new
one in the default encoding with the languages that are found. Without include patterns those
of the languages apply. -/
def start (found : Catalog) (cache : Cache) (includes excludes : List Text) : Survey :=
  let used := if cache.files.isEmpty then Cache.empty none found else cache
  { cache := used
    includes := if includes.isEmpty then used.catalog.defaultIncludes else includes
    excludes := excludes
    table := SymbolTable.empty
    roots := [] }

/-- The survey before any has been begun. -/
def blank : Survey := start ⟨[]⟩ (Cache.empty none ⟨[]⟩) [] []

/-- What the survey reads below a root. Package markers are never read. -/
def selection (survey : Survey) : Selection :=
  Selection.ofTexts survey.includes (survey.excludes ++ survey.cache.catalog.defaultExcludes) true

/-- The paths below a root that the survey reads, in ascending order. All folders below the root
are gone through to find them. -/
def sourcePaths [Platform] (survey : Survey) (tree : Tree) (root : Path) :
    Except Failure (List Text) := do
  let paths ← tree.scan survey.selection root
  let location ← ((root.expand.bind tree.locate).mapError .file)
  if Platform.stack.listed < tree.listedDepth location then .error (.file .tooDeep) else .ok paths

/-- The report that a file is about to be read; a file in the cache is not read again, and one
whose path has no absolute form is never read. -/
def readingRecords [Platform] (cache : Cache) (path : Path) : List Record :=
  match path.resolve with
  | .ok key =>
    if (cache.files.lookup key).isNone then
      [Stage.caching.record .debug ("parsing... " ++ key.toText)]
    else []
  | .error _ => []

/-- The report that the files below a root are about to be looked for. -/
def scanningRecord (root : Path) : Record :=
  Stage.scanning.record .debug ("Scanning " ++ root.toText)

/-- Marks a root as seen. -/
def mark (survey : Survey) (root : Path) : Survey := { survey with roots := survey.roots ++ [root] }

/-- Adds the types of a source to the table. -/
def register (survey : Survey) (source : SourceFile) : Survey :=
  { survey with table := survey.table.register source }

/-- The records that show the table: each package with its types. -/
def dump (survey : Survey) : List Record :=
  Stage.scanning.record .debug "Dumping out symbol table structure" ::
    survey.table.sorted.flatMap fun package =>
      Stage.scanning.record .debug package.name ::
        package.types.map fun declaration =>
          Stage.scanning.record .debug ('\t' :: declaration.name)

end Survey

end CodeAtlas
