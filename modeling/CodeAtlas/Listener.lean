/-
  File:      CodeAtlas/Listener.lean
  Subject:   Where reports go.

  * `Listener`: the console and, if asked for, a file that is written on.
  * `Listener.start`: makes the file ready. The console listens even when the file
    cannot be had.
  * `Listener.shown`, `Listener.note`: what the console shows of records, and the
    tree after the file has got them.
-/
import CodeAtlas.Log
import CodeAtlas.Text.Encoding
import CodeAtlas.Tree

namespace CodeAtlas

/-- Where reports go: to the console from a level on, and to a file. -/
structure Listener where
  level : Level
  file : Option Path
  /-- The time that records in the file carry. -/
  clock : Text
  deriving DecidableEq, Repr

/-- Adds bytes to the end of a file, which is made if it is missing. -/
def Tree.append (tree : Tree) (path : Path) (bytes : Bytes) : Except FileFault Tree :=
  match tree.entry? path with
  | some (.file old) => tree.write path (old ++ bytes)
  | _ => tree.write path bytes

/-- A record on the console. -/
def Record.consoleLine (record : Record) : Text :=
  "[" ++ loggerRoot ++ "] " ++ record.level.name ++ " " ++ record.message ++ "\n"

/-- A record in a file, with the time. -/
def Record.fileLine (clock : Text) (record : Record) : Text :=
  clock ++ " " ++ record.line ++ "\n"

/-- Whether a record is shown when nobody listens. -/
def Record.isLoud (record : Record) : Bool := Level.warning.rank ≤ record.level.rank

namespace Listener

/-- The console alone. -/
def console (verbose : Bool) (clock : Text) : Listener :=
  ⟨if verbose then .debug else .info, none, clock⟩

/-- A listener with a file, for which folders are made. -/
def start [Platform] (verbose : Bool) (file : Option Path) (clock : Text) (tree : Tree) :
    Tree × Listener × Except FileFault Unit :=
  let console := Listener.console verbose clock
  match file with
  | none => (tree, console, .ok ())
  | some path =>
    match tree.makeFolders path.parent with
    | (made, .error fault) => (made, console, .error fault)
    | (made, .ok ()) =>
      match made.append path [] with
      | .ok opened => (opened, { console with file := some path }, .ok ())
      | .error fault => (made, console, .error fault)

/-- Whether a record is important enough. -/
def hears (listener : Listener) (record : Record) : Bool :=
  listener.level.rank ≤ record.level.rank

/-- The number of places that reports go to. -/
def places (listener : Listener) : Nat := if listener.file.isSome then 2 else 1

/-- What the console shows of records. Without a listener warnings and graver messages are shown
bare. -/
def shown (listener : Option Listener) (records : List Record) : Text :=
  match listener with
  | none => (records.filter Record.isLoud).flatMap fun record => record.message ++ ['\n']
  | some listener => (records.filter listener.hears).flatMap Record.consoleLine

/-- The lines that the file of a listener gets for records. -/
def written (listener : Listener) (records : List Record) : Text :=
  (records.filter listener.hears).flatMap (Record.fileLine listener.clock)

/-- The tree after records have been written to the end of the listener's file, whatever it
holds by then. -/
def note (listener : Option Listener) (records : List Record) (tree : Tree) : Tree :=
  match listener with
  | none => tree
  | some listener =>
    match listener.file, listener.written records with
    | none, _ | _, [] => tree
    | some path, lines => (tree.append path (Encoding.utf8.encode lines)).toOption.getD tree

end Listener

end CodeAtlas
