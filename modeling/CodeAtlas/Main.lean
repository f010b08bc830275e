/-
  File:      CodeAtlas/Main.lean
  Subject:   The program on a real machine.

  The files that the program may look at are read into a tree, the program runs
  on the tree, and what it changed is written back.

  * `Disk.load`, `Disk.store`: between the disk and trees.
  * `main`: the program, on a platform without plug-ins and further encodings. The tool
    for API documentation is not asked; the program goes on as it does without one.
-/
import CodeAtlas.Clock
import CodeAtlas.Program

namespace CodeAtlas.Disk

/-! ## 1. Reading -/

/-- The place of a location on the disk. -/
def place (location : Location) :=
  (· / String.ofList ('/' :: Text.join ['/'] location)) <$> IO.currentDir

/-- What stands at a location. -/
def entry? (location : Location) : IO (Option Entry) := do
  let path ← place location
  if ← path.isDir then return some .folder
  else if ← path.pathExists then return some (.file (← IO.FS.readBinFile path).toList)
  else return none

/-- Adds what stands at a location, and the folders above it. -/
def loadEntry (tree : Tree) (location : Location) : IO Tree :=
  (List.range (location.length + 1)).foldlM (fun tree n => do
    let part := location.take n
    if part.isEmpty || (tree.entryAt? part).isSome then return tree
    else
      match ← entry? part with
      | some found => return tree.put part found
      | none => return tree) tree

/-- Adds what stands at a location and, for a folder, everything below it. -/
partial def load (tree : Tree) (location : Location) : IO Tree := do
  let tree ← loadEntry tree location
  if tree.entryAt? location != some .folder then return tree
  else
    let children ← (← place location).readDir
    children.foldlM (fun tree child => load tree (location ++ [child.fileName.toList])) tree

/-- The locations that settings are read from. -/
def settingsLocations (path : Path) : List Location :=
  let file := path.resolved.segments
  [file, file ++ [settingsFile], file.dropLast ++ [settingsFile]]

/-- The locations that a run with settings looks at, with everything below them. -/
def runLocations (settings : Settings) : List Location :=
  (settings.sourceRoots ++ [settings.destinationFolder] ++ settings.templateFolder.toList ++
    settings.stylesheet.toList).map (·.resolved.segments)

/-- The tree that a request is carried out on. -/
def loadFor [Platform] (host : Host) (request : Command.Request) : IO Tree := do
  let seen (text : Text) : Path := host.current.join (Path.ofText text)
  let path := (Path.ofText request.path).expand.toOption.getD ⟨.relative, []⟩
  let tree ← (host.current.segments :: settingsLocations (host.current.join path)).foldlM
    loadEntry Tree.empty
  let tree ← (request.logFile.toList.map fun text => (seen text).resolved.segments).foldlM
    loadEntry tree
  match Program.settingsOf host request tree with
  | .error _ => return tree
  | .ok settings =>
    let api := settings.api.folder.getD (settings.destinationFolder.parent.child "apidocs")
    (runLocations settings).foldlM load (← loadEntry tree api.resolved.segments)

/-! ## 2. Writing -/

/-- Writes the entries that differ from those before. -/
def store (before after : Tree) : IO Unit := do
  for (location, found) in after.entries do
    if before.entryAt? location != some found then
      let path ← place location
      match found with
      | .folder => IO.FS.createDirAll path
      | .file bytes => IO.FS.writeBinFile path ⟨bytes.toArray⟩

/-! ## 3. The machine -/

/-- The home folder on a line of the list of accounts: its first and its sixth column. -/
def account? (line : Text) : Option (Text × Path) :=
  match line.splitOn ':' with
  | name :: _ :: _ :: _ :: _ :: home :: _ => some (name, Path.ofText home)
  | _ => none

/-- The home folders on the machine. -/
def homes : IO Homes := do
  let own := (← IO.getEnv "HOME").getD "/"
  let list ← place ["etc", "passwd"]
  let text ← if ← list.pathExists then IO.FS.readFile list else pure ""
  return ⟨Path.ofText own.toList, (text.toList.splitOn '\n').filterMap account?⟩

/-- What the machine tells. The time is that at which the running process was listed. -/
def host [Platform] : IO Host := do
  let current ← IO.currentDir
  let time := (← (← place ["proc", "self"]).metadata).modified
  let days := time.sec.fdiv 86400
  return {
    current := Path.ofText current.toString.toList
    engine := Template.Engine.interpreter
    tool := .failed "javadoc"
    year := Text.ofInt (Date.ofDays days).year
    clock := clockText time.sec (time.nsec.toNat / 1000000) }

/-- The files that the program runs on; none for a command line that is not understood. -/
def files [Platform] (host : Host) (arguments : List Text) : IO Tree :=
  match Command.Request.parse arguments with
  | .ok request => loadFor host request
  | .error _ => return Tree.empty

/-- Runs the program on the machine. -/
def run [Platform] (words : List Text) : IO UInt32 := do
  let host ← host
  let before ← files host words
  let outcome := Program.run host words before
  store before outcome.tree
  IO.print (String.ofList outcome.output)
  IO.eprint (String.ofList outcome.errors)
  match outcome.crash with
  | some crash => IO.eprintln (String.ofList crash.message)
  | none => pure ()
  return outcome.code.toUInt32

end CodeAtlas.Disk

open CodeAtlas in
/-- The program. -/
def main (arguments : List String) : IO UInt32 := do
  let _ : Platform := Platform.plain (← Disk.homes)
  Disk.run (arguments.map String.toList)
