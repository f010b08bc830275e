/-
  File:      CodeAtlas/Path.lean
  Subject:   File paths: reading and writing them, joining, suffixes, normal form.

  * `Path.ofText`, `Path.toText`: doubled and trailing slashes and `.` segments
    are dropped on reading; `..` segments are kept.
  * `Path.join`: an absolute second path stands alone.
  * `Path.suffix`: the last dot of the name and what follows it.
  * `Path.resolved`: the absolute path without `..` segments.
  * `Path.relativeTo`: the way from one folder to another through `..`.
  * `Homes.expand?`: a leading `~` stands for a home folder.
-/
import CodeAtlas.Text.Basic

namespace CodeAtlas

/-- Where a path starts. Two leading slashes, and only two, are kept apart from one. -/
inductive Anchor where
  | relative
  | root
  | doubleRoot
  /-- The folder of the templates that come with the program. No text names it. -/
  | builtIn
  deriving DecidableEq, Repr

/-- A path: its start and its segments, none of which is empty or `.`. -/
structure Path where
  anchor : Anchor
  segments : List Text
  deriving DecidableEq, Repr

namespace Path

/-! ## 1. Reading and writing -/

/-- The anchor that the leading slashes of a text spell. -/
def anchorOf : Text → Anchor
  | '/' :: '/' :: '/' :: _ => .root
  | '/' :: '/' :: _ => .doubleRoot
  | '/' :: _ => .root
  | _ => .relative

/-- The segments of a slash-separated text, without empty ones and `.`. -/
def segmentsOf (text : Text) : List Text :=
  (text.splitOn '/').filter fun segment => !segment.isEmpty && segment != ['.']

/-- Reads a path. -/
def ofText (text : Text) : Path := ⟨anchorOf text, segmentsOf text⟩

/-- How the folder of the templates that come with the program is shown. -/
def builtInText : Text := "/templates"

/-- Writes a path; the empty relative path is `.`. -/
def toText (path : Path) : Text :=
  let body := Text.join ['/'] path.segments
  match path.anchor, path.segments with
  | .relative, [] => ['.']
  | .relative, _ => body
  | .root, _ => '/' :: body
  | .doubleRoot, _ => '/' :: '/' :: body
  | .builtIn, [] => builtInText
  | .builtIn, _ => builtInText ++ '/' :: body

/-- Whether a path starts at the root. -/
def isAbsolute (path : Path) : Bool := path.anchor != .relative

/-! ## 2. Parts -/

/-- The last segment; empty for a path without segments. -/
def name (path : Path) : Text := path.segments.getLast?.getD []

/-- The path without its last segment. -/
def parent (path : Path) : Path := { path with segments := path.segments.dropLast }

/-- The suffix of a file name: its last dot and what follows, unless the name starts or ends
with that dot. -/
def suffixOf (name : Text) : Text :=
  match Text.cutLast? '.' name with
  | some (_ :: _, after@(_ :: _)) => '.' :: after
  | _ => []

/-- The suffix of the last segment. -/
def suffix (path : Path) : Text := suffixOf path.name

/-! ## 3. Joining and normal form -/

/-- `base.join path` is `path` itself if it is absolute, and lies below `base` otherwise. -/
def join (base path : Path) : Path :=
  if path.isAbsolute then path else { base with segments := base.segments ++ path.segments }

/-- The path of a segment below `base`. -/
def child (base : Path) (segment : Text) : Path :=
  { base with segments := base.segments ++ [segment] }

/-- Walks from the folder at `location` along segments: `..` goes up and stops at the root. -/
def descend : List Text → List Text → List Text
  | location, [] => location
  | location, segment :: rest =>
    if segment == ['.', '.'] then descend location.dropLast rest
    else descend (location ++ [segment]) rest

/-- The absolute segments of a path seen from the folder `current`, without `..`. -/
def location (current : Path) (path : Path) : List Text :=
  descend [] (current.join path).segments

/-- The form without `..` segments of an absolute path; all spellings have one such form. -/
def resolved (path : Path) : Path := ⟨.root, descend [] path.segments⟩

/-- The account whose home folder a leading `~name` asks for, and what follows it. One's own
account has no name. -/
def account? (path : Path) : Option (Text × List Text) :=
  match path.anchor, path.segments with
  | .relative, ('~' :: account) :: rest => some (account, rest)
  | _, _ => none

/-- What two lists have after their longest common start. -/
def splitCommon : List Text → List Text → List Text × List Text
  | a :: as, b :: bs => if a == b then splitCommon as bs else (a :: as, b :: bs)
  | as, bs => (as, bs)

/-- The way from the folder `start` to `path`, by way of `..` segments. -/
def relativeTo (current : Path) (path start : Path) : Path :=
  let (down, up) := splitCommon (location current path) (location current start)
  ⟨.relative, up.map (fun _ => ['.', '.']) ++ down⟩

/-- The path as seen from a folder whose segments it starts with. -/
def below? (folder path : Path) : Option Path :=
  if folder.anchor == path.anchor && folder.segments.isPrefixOf path.segments then
    some ⟨.relative, path.segments.drop folder.segments.length⟩
  else none

end Path

/-! ## 4. Home folders -/

/-- The home folders that are known: one's own, and those of other accounts by name. -/
structure Homes where
  own : Path
  others : List (Text × Path) := []

namespace Homes

/-- All of them. -/
def all (homes : Homes) : List Path := homes.own :: homes.others.map (·.2)

/-- The home folder of an account. One that is not given from the root on is not known. -/
def of? (homes : Homes) (account : Text) : Option Path :=
  (if account.isEmpty then some homes.own else homes.others.lookup account).filter (·.isAbsolute)

/-- Replaces a leading `~` or `~name` by a home folder, which must be known. -/
def expand? (homes : Homes) (path : Path) : Option Path :=
  match path.account? with
  | none => some path
  | some (account, rest) =>
    (homes.of? account).map fun home => { home with segments := home.segments ++ rest }

end Homes

end CodeAtlas
