/-
  File:      CodeAtlas/Navigation.lean
  Subject:   The navigation pages of a project.

  * `NavigationOptions`: titles, footer and encoding of the pages.
  * `ProjectIndex.scope`, `PackageEntry.scope`: what the templates see.
  * `Work.writeNavigation`: the pages at the root, then two pages per package in
    the package's folder.
-/
import CodeAtlas.Index
import CodeAtlas.Template.Renderer
import CodeAtlas.Work

namespace CodeAtlas

open Template (Value Scope Renderer)

/-- What all navigation pages of a run share. -/
structure NavigationOptions where
  windowTitle : Text := []
  docTitle : Text := []
  /-- The footer, which is HTML already. -/
  bottom : Text := []
  outputEncoding : Text := "utf-8"

/-- The pages at the root. -/
def rootPages : List Text :=
  ["index", "overview-frame", "allclasses-frame", "overview-summary"]

/-- The pages of each package. -/
def packagePages : List Text := ["package-summary", "package-frame"]

/-! ## 1. What the templates see -/

/-- A class as a value. -/
def ClassEntry.value (entry : ClassEntry) : Value :=
  .record "ClassInfo" [("name", .text entry.name), ("dir", .text entry.folder),
    ("filename", .text entry.page)]

/-- A package as a value. -/
def PackageEntry.value (entry : PackageEntry) : Value :=
  .record "PackageInfo" [("name", .text entry.name), ("dir", .text entry.folder),
    ("root_ref", .text entry.rootRef),
    ("classes", .table (entry.classes.map fun (key, info) => (.text key, info.value)))]

/-- An index as a value. -/
def ProjectIndex.value (index : ProjectIndex) : Value :=
  .record "ProjectInfo"
    [("all_packages", .table (index.packages.map fun (key, info) => (.text key, info.value))),
     ("all_classes", .table (index.classes.map fun (key, info) => (.text key, info.value)))]

/-- The names that pages at the root see. -/
def ProjectIndex.scope (index : ProjectIndex) (options : NavigationOptions) : Scope :=
  [("output_encoding", .text options.outputEncoding),
   ("window_title", .text options.windowTitle),
   ("doc_title", .text options.docTitle),
   ("bottom", .text options.bottom),
   ("info", index.value),
   ("root_ref", .text []),
   ("index_page", .text packagePage)]

/-- The names that the pages of a package see. -/
def PackageEntry.scope (entry : PackageEntry) (shared : Scope) : Scope :=
  [("pkg_info".toList, entry.value), ("root_ref", .text entry.rootRef)] ++ shared

/-! ## 2. Writing -/

namespace Work

variable [Platform]

/-- Writes one navigation page into a folder. -/
def writePage (renderer : Renderer) (encoding : Text) (folder : Path) (scope : Scope)
    (name : Text) : Work Path := do
  let desk ← get
  match renderer.render desk.chance desk.tree name scope with
  | .error failure => throw failure
  | .ok page =>
    let target := folder.child (name ++ ".html")
    onTree fun tree => tree.publish target encoding page
    report [Stage.indexing.record .debug ("Wrote " ++ target.toText)]
    pure target

/-- Writes all navigation pages below a folder. -/
def writeNavigation (renderer : Renderer) (root : Path) (options : NavigationOptions) :
    Work (List Path) := do
  let index := ProjectIndex.ofTable (← get).survey.table
  let scope := index.scope options
  let write := writePage renderer options.outputEncoding
  let atRoot ← rootPages.mapM (write root scope)
  let inPackages ← index.packages.mapM fun (_, entry) =>
    packagePages.mapM (write (root.join (Path.ofText entry.folder)) (entry.scope scope))
  let written := atRoot ++ inPackages.flatten
  report [Stage.indexing.record .info ("Wrote " ++ Text.ofNat written.length ++
    " index pages for " ++ Text.ofNat index.packages.length ++ " packages")]
  pure written

end Work

end CodeAtlas
