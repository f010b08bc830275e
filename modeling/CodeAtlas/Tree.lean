/-
  File:      CodeAtlas/Tree.lean
  Subject:   File trees as values: looking up, reading, writing, making folders.

  A tree lists its entries by location, the segments from the root down.
  Nothing here has effects: an operation that changes files returns the new tree.

  * `FileFault`: why a path cannot be used.
  * `Path.expand`, `Path.resolve`: a path with its home folder in the place of a leading
    `~`; the absolute form of it.
  * `Tree.follow`: walks a path; every segment but the last must be a folder,
    also the one before a `..`.
  * `Tree.holds`, `Tree.isFolder`, `Tree.isFile`: a path that leads nowhere is no
    fault, but a name that is too long is.
  * `Tree.write`, `Tree.makeFolders`, `Tree.removeFile`: the changes.
  * `Tree.filesBelow`: the files of a folder at any depth.
-/
import CodeAtlas.Platform

namespace CodeAtlas

/-- Why an operation on a file or folder fails. -/
inductive FileFault where
  | missing (path : Path)
  | notFolder (path : Path)
  | isFolder (path : Path)
  | present (path : Path)
  /-- A name on the path, or the path as a whole, has too many bytes. -/
  | nameTooLong (path : Path)
  /-- The path holds the character that ends a path for the operating system. -/
  | nullByte
  /-- The path holds half a character. -/
  | half (fault : HalfFault)
  /-- The path starts with the name of an account whose home folder is not known. -/
  | noHome
  /-- Folders are nested too deep for the work that goes down them. -/
  | tooDeep
  deriving DecidableEq, Repr

/-- The wording for work that is nested too deep. -/
def tooDeepMessage : Text := "maximum recursion depth exceeded while calling a Python object"

/-- The text of a fault, with the number that operating systems give it. -/
def FileFault.message : FileFault → Text
  | .missing path => "[Errno 2] No such file or directory: '" ++ path.toText ++ "'"
  | .notFolder path => "[Errno 20] Not a directory: '" ++ path.toText ++ "'"
  | .isFolder path => "[Errno 21] Is a directory: '" ++ path.toText ++ "'"
  | .present path => "[Errno 17] File exists: '" ++ path.toText ++ "'"
  | .nameTooLong path => "[Errno 36] File name too long: '" ++ path.toText ++ "'"
  | .nullByte => "embedded null byte"
  | .half fault => fault.message
  | .noHome => "Could not determine home directory."
  | .tooDeep => tooDeepMessage

/-- Whether a fault is one of the operating system. A path with a null byte, with half a character
or without its home folder is never shown to it, and it does not see how deep work is nested. -/
def FileFault.isOfSystem : FileFault → Bool
  | .nullByte | .half _ | .noHome | .tooDeep => false
  | _ => true

/-! ## 1. Limits -/

/-- The greatest number of bytes of a name. -/
def nameLimit : Nat := 255

/-- The greatest number of bytes of a path. -/
def pathLimit : Nat := 4095

/-- The number of bytes of a text. -/
def byteSize (text : Text) : Nat := text.foldl (fun size c => size + c.utf8Size) 0

namespace Path

/-- Checks that a path can be shown to the operating system. -/
def checkText (path : Path) : Except FileFault Unit :=
  match HalfFault.inFileName? path.toText with
  | some fault => .error (.half fault)
  | none => if path.toText.contains '\x00' then .error .nullByte else .ok ()

/-- Checks a path as a whole. -/
def check (path : Path) : Except FileFault Unit := do
  path.checkText
  if pathLimit < byteSize path.toText then .error (.nameTooLong path) else .ok ()

/-- The path with a home folder in the place of a leading `~` or `~name`. The name of the account
is looked up, which takes a name that can be one. -/
def expand [Platform] (path : Path) : Except FileFault Path :=
  match path.account? with
  | none => .ok path
  | some (account, _) =>
    match HalfFault.inFileName? account with
    | some fault => .error (.half fault)
    | none =>
      if account.contains '\x00' then .error .nullByte
      else
        match Platform.homes.expand? path with
        | some whole => .ok whole
        | none => .error .noHome

/-- The absolute form without `..` segments and without a leading `~`. All names that can be shown
to the operating system are passed over, whether they exist or not. -/
def resolve [Platform] (path : Path) : Except FileFault Path := do
  let whole ← path.expand
  whole.checkText
  .ok whole.resolved

end Path

/-- The bytes of a file. -/
abbrev Bytes := List UInt8

/-- The segments of a file or folder from the root down. -/
abbrev Location := List Text

/-- What stands at a location. -/
inductive Entry where
  | folder
  | file (bytes : Bytes)
  deriving DecidableEq

/-- A file tree: the entries below the root, each location once. -/
structure Tree where
  entries : List (Location × Entry)

namespace Tree

/-- The tree that holds nothing but the root. -/
def empty : Tree := ⟨[]⟩

/-! ## 2. Looking up -/

/-- What stands at a location. The root is always a folder. -/
def entryAt? (tree : Tree) (location : Location) : Option Entry :=
  if location.isEmpty then some .folder else tree.entries.lookup location

/-- Follows segments from the folder at `location`. Going up from a folder is always possible;
every other step needs an entry, and all but the last need a folder. -/
def follow (tree : Tree) (whole : Path) : Location → List Text → Except FileFault Location
  | location, [] => .ok location
  | location, segment :: rest =>
    if segment == ['.', '.'] then follow tree whole location.dropLast rest
    else if nameLimit < byteSize segment then .error (.nameTooLong whole)
    else
      match tree.entryAt? (location ++ [segment]) with
      | none => .error (.missing whole)
      | some .folder => follow tree whole (location ++ [segment]) rest
      | some (.file _) =>
        if rest.isEmpty then .ok (location ++ [segment]) else .error (.notFolder whole)

/-- The location of an existing file or folder. -/
def locate (tree : Tree) (path : Path) : Except FileFault Location := do
  path.check
  follow tree path [] path.segments

/-- What stands at the end of a path; nothing if the path cannot be followed. -/
def entry? (tree : Tree) (path : Path) : Option Entry :=
  match tree.locate path with
  | .ok location => tree.entryAt? location
  | .error _ => none

/-- What stands at the end of a path. Of the faults only a name that is too long matters. -/
def probe (tree : Tree) (path : Path) : Except FileFault (Option Entry) :=
  match tree.locate path with
  | .ok location => .ok (tree.entryAt? location)
  | .error (.nameTooLong whole) => .error (.nameTooLong whole)
  | .error _ => .ok none

/-- Whether an entry is a file. -/
def Entry.isFile : Entry → Bool
  | .file _ => true
  | .folder => false

/-- Whether a path leads to a file or folder. -/
def holds (tree : Tree) (path : Path) : Except FileFault Bool :=
  (tree.probe path).map Option.isSome

/-- Whether a path leads to a folder. -/
def isFolder (tree : Tree) (path : Path) : Except FileFault Bool :=
  (tree.probe path).map (· == some .folder)

/-- Whether a path leads to a file. -/
def isFile (tree : Tree) (path : Path) : Except FileFault Bool :=
  (tree.probe path).map (·.any Entry.isFile)

/-- The bytes of a file. -/
def read (tree : Tree) (path : Path) : Except FileFault Bytes := do
  match tree.entryAt? (← tree.locate path) with
  | some (.file bytes) => .ok bytes
  | some .folder => .error (.isFolder path)
  | none => .error (.missing path)

/-- The files below a folder, each with its location relative to the folder. -/
def filesBelow (tree : Tree) (folder : Location) : List (Location × Bytes) :=
  tree.entries.filterMap fun (location, entry) =>
    match entry with
    | .file bytes =>
      if folder.isPrefixOf location && folder.length < location.length then
        some (location.drop folder.length, bytes)
      else none
    | .folder => none

/-! ## 3. Changing -/

/-- Puts an entry at a location, in the place of what stood there. -/
def put (tree : Tree) (location : Location) (entry : Entry) : Tree :=
  if tree.entries.any (·.1 == location) then
    ⟨tree.entries.map fun old => if old.1 == location then (location, entry) else old⟩
  else ⟨tree.entries ++ [(location, entry)]⟩

/-- The location that a new file or folder at `path` gets: its folder must exist. -/
def place (tree : Tree) (path : Path) : Except FileFault Location :=
  match path.segments.getLast? with
  | none => .ok []
  | some last => do
    path.check
    let folder ← follow tree path [] path.segments.dropLast
    match tree.entryAt? folder with
    | some (.file _) => .error (.notFolder path)
    | _ =>
      if nameLimit < byteSize last then .error (.nameTooLong path)
      else .ok (Path.descend folder [last])

/-- Writes a file, new or in the place of another. -/
def write (tree : Tree) (path : Path) (bytes : Bytes) : Except FileFault Tree := do
  let location ← tree.place path
  match tree.entryAt? location with
  | some .folder => .error (.isFolder path)
  | _ => .ok (tree.put location (.file bytes))

/-- Makes one folder in a folder that exists. -/
def makeFolder (tree : Tree) (path : Path) : Except FileFault Tree := do
  let location ← tree.place path
  match tree.entryAt? location with
  | some _ => .error (.present path)
  | none => .ok (tree.put location .folder)

/-- Makes a folder; one that exists already is no fault. -/
def ensureFolder (tree : Tree) (path : Path) : Except FileFault Tree :=
  match tree.makeFolder path with
  | .ok made => .ok made
  | .error fault => if tree.entry? path == some .folder then .ok tree else .error fault

/-- Makes a folder and the folders above it that are missing, given by its segments from the
last to the first. Folders made before a fault stay. -/
def makeFoldersRev (anchor : Anchor) : List Text → Tree → Tree × Except FileFault Unit
  | [], tree => (tree, .ok ())
  | segment :: above, tree =>
    let path : Path := ⟨anchor, (segment :: above).reverse⟩
    match tree.ensureFolder path with
    | .ok made => (made, .ok ())
    | .error (.missing _) =>
      match makeFoldersRev anchor above tree with
      | (made, .error fault) => (made, .error fault)
      | (made, .ok ()) =>
        match made.ensureFolder path with
        | .ok whole => (whole, .ok ())
        | .error fault => (made, .error fault)
    | .error fault => (tree, .error fault)

/-- How many folders in a row are missing above a folder that is made, given by its segments from
the last to the first. -/
def missingRev (tree : Tree) (anchor : Anchor) : List Text → Nat
  | [] => 0
  | segment :: above =>
    match tree.ensureFolder ⟨anchor, (segment :: above).reverse⟩ with
    | .error (.missing _) => tree.missingRev anchor above + 1
    | _ => 0

/-- Makes a folder and the folders above it that are missing, unless there are too many of them. -/
def makeFolders [Platform] (tree : Tree) (path : Path) : Tree × Except FileFault Unit :=
  if Platform.stack.missing < tree.missingRev path.anchor path.segments.reverse then
    (tree, .error .tooDeep)
  else makeFoldersRev path.anchor path.segments.reverse tree

/-- Removes a file. -/
def removeFile (tree : Tree) (path : Path) : Except FileFault Tree := do
  let location ← tree.locate path
  match tree.entryAt? location with
  | some .folder => .error (.isFolder path)
  | _ => .ok ⟨tree.entries.filter (·.1 != location)⟩

end Tree

end CodeAtlas
