/-
  File:      CodeAtlas/Scan.lean
  Subject:   Which files below a root are read, and which roots are worth it.

  * `Selection`: include and exclude patterns; a path is selected if some
    include and no exclude matches it.
  * `Tree.scan`: the selected files below a root, in ascending order. Folders of
    version control systems are not entered.
  * `Tree.hasSources`, `Tree.prune`: a root is worth scanning if a file with one
    of the wanted endings lies below folders that are named like packages.
  * `Tree.listedDepth`, `Tree.searchDepth`: how deep a scan and the search for sources
    go down.
-/
import CodeAtlas.Failure
import CodeAtlas.Glob

namespace CodeAtlas

/-- Include and exclude patterns. -/
structure Selection where
  includes : List Glob
  excludes : List Glob

/-- Files of editors and of the desktop, which are excluded unless told otherwise. -/
def standardExcludes : List Text :=
  ["**/*~", "**/#*#", "**/.#*", "**/%*%", "**/._*", "**/.DS_Store"]

namespace Selection

/-- Reads patterns. Without includes everything is included. -/
def ofTexts (includes excludes : List Text) (withStandard : Bool) : Selection where
  includes := (if includes.isEmpty then ["**".toList] else includes).map Glob.ofText
  excludes := (excludes ++ if withStandard then standardExcludes else []).map Glob.ofText

/-- Whether a relative path is selected. -/
def selects (selection : Selection) (path : Text) : Bool :=
  selection.includes.any (·.accepted path) && !selection.excludes.any (·.accepted path)

end Selection

/-! ## 1. Scanning -/

/-- Folders of version control systems. -/
def versionFolders : List Text :=
  List.map String.toList [".git", ".hg", ".svn", ".bzr", "CVS", "_darcs"]

/-- Whether a file lies in a folder of a version control system. -/
def inVersionFolder (location : Location) : Bool :=
  location.dropLast.any (versionFolders.contains ·)

namespace Tree

/-- The relative paths of the files below a folder that are not under version control. -/
def pathsBelow (tree : Tree) (folder : Location) : List Text :=
  ((tree.filesBelow folder).filter (!inVersionFolder ·.1)).map fun file => Text.join ['/'] file.1

/-- The selected files below a root, in ascending order. -/
def scan [Platform] (tree : Tree) (selection : Selection) (root : Path) :
    Except Failure (List Text) := do
  match tree.locate (← root.expand.mapError .file) with
  | .error (.nameTooLong whole) => .error (.file (.nameTooLong whole))
  | .error _ => .error (.rootMissing root)
  | .ok location =>
    if tree.entryAt? location == some .folder then
      .ok (Text.sorted ((tree.pathsBelow location).filter selection.selects))
    else .error (.rootNotFolder root)

/-- The folders below a folder, and itself, that are reached through folders of which `enters`
holds, each by its names from there. -/
def foldersBelow (tree : Tree) (folder : Location) (enters : Text → Bool) : List Location :=
  tree.entries.filterMap fun (location, entry) =>
    match entry with
    | .folder =>
      if folder.isPrefixOf location && (location.drop folder.length).all enters then
        some (location.drop folder.length)
      else none
    | .file _ => none

/-- The length of the longest of some ways. -/
def depth (ways : List Location) : Nat := (ways.map List.length).foldr max 0

/-- How deep the folders are nested whose files are listed. -/
def listedDepth (tree : Tree) (folder : Location) : Nat :=
  depth (tree.foldersBelow folder (!versionFolders.contains ·))

/-! ## 2. Pruning -/

/-- Whether a folder is named like a package: it starts with a letter, `_` or `$`. -/
def isPackageFolder : Text → Bool
  | [] => false
  | c :: _ => Text.isLetter c || c == '_' || c == '$'

/-- Whether a file has one of the endings and lies below folders that are named like packages. -/
def isSource (endings : List Text) (file : Location × Bytes) : Bool :=
  file.1.dropLast.all isPackageFolder && endings.any (·.isSuffixOf (file.1.getLast?.getD []))

/-- The folders that are entered in search of a source: what a folder holds is looked at in
ascending order, and nothing that comes after a source. -/
def searched (tree : Tree) (endings : List Text) (folder : Location) : List Location :=
  let found := (tree.filesBelow folder).filter (isSource endings)
  (tree.foldersBelow folder isPackageFolder).filter fun way => found.all (decide <| way < ·.1)

/-- How deep the folders are nested that are entered in search of a source. -/
def searchDepth (tree : Tree) (endings : List Text) (folder : Location) : Nat :=
  depth (tree.searched endings folder)

/-- Whether a file with one of the endings lies in a folder, or below folders in it that are
named like packages. -/
def hasSources [Platform] (tree : Tree) (endings : List Text) (root : Path) :
    Except FileFault Bool :=
  match tree.locate root with
  | .error (.nameTooLong whole) => .error (.nameTooLong whole)
  | .error _ => .ok false
  | .ok location =>
    if Platform.stack.folders < tree.searchDepth endings location then .error .tooDeep
    else .ok ((tree.filesBelow location).any (isSource endings))

/-- The roots that hold sources, each spelling once. A leading `~` is not part of the spelling. -/
def prune [Platform] (tree : Tree) (endings : List Text) (roots : List Path) :
    Except FileFault (List Path) :=
  roots.foldlM (fun kept raw => do
    let root ← raw.expand
    if kept.contains root then return kept
    else if ← tree.hasSources endings root then return kept ++ [root]
    else return kept) []

end Tree

end CodeAtlas
