/-
  File:      CodeAtlas/Cache.lean
  Subject:   Outlines of source files, read once and kept.

  * `SourceFile.load`: reads a file and makes its outline.
  * `Cache.get`: the outline of a file, from the cache if it is there. All
    spellings of a path share one entry.
  * A reading that fails leaves the cache as it was.
-/
import CodeAtlas.Failure
import CodeAtlas.Language.Catalog
import CodeAtlas.Source.Machine

namespace CodeAtlas

variable [Platform]

/-- The encoding of an absent or empty name. -/
def encodingOrDefault (encoding : Option Text) : Text :=
  match encoding with
  | some name@(_ :: _) => name
  | _ => "utf-8"

/-- Reads the file at a path and makes its outline. -/
def SourceFile.load (tree : Tree) (path : Path) (encoding : Option Text) (language : Language) :
    Except Failure SourceFile := do
  if !(← (tree.holds path).mapError .file) then .error (.sourceMissing path)
  else
    let text ← tree.readSource path (encodingOrDefault encoding)
    if Reader.exceeds language Platform.stack.types text then .error .tooDeep
    else .ok (SourceFile.ofText text path language encoding)

/-- Outlines by resolved path, in the order they were read. -/
structure Cache where
  /-- The encoding that files are read in. -/
  encoding : Option Text
  catalog : Catalog
  files : List (Path × SourceFile)

namespace Cache

/-- A cache without files. -/
def empty (encoding : Option Text) (catalog : Catalog) : Cache := ⟨encoding, catalog, []⟩

/-- The outline of a file that has been read. -/
def peek (cache : Cache) (path : Path) : Except FileFault (Option SourceFile) :=
  path.resolve.map fun key => cache.files.lookup key

/-- The outline of a file, which is read if it has not been read yet. -/
def get (cache : Cache) (tree : Tree) (path : Path) : Except Failure (SourceFile × Cache) := do
  let key ← path.resolve.mapError .file
  match cache.files.lookup key with
  | some source => .ok (source, cache)
  | none =>
    let source ← SourceFile.load tree key cache.encoding (cache.catalog.languageFor key)
    .ok (source, { cache with files := cache.files ++ [(key, source)] })

/-- Forgets all files. -/
def clear (cache : Cache) : Cache := { cache with files := [] }

/-- The outlines in the order they were read. -/
def sources (cache : Cache) : List SourceFile := cache.files.map (·.2)

end Cache

end CodeAtlas
