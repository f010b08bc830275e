/-
  File:      CodeAtlas/Source/Machine.lean
  Subject:   The nested calls of the reader, one token at a time.

  `Reader.body` reads a type inside a type by a nested call. The machine keeps the calls
  that are open as a stack of frames, so that it can be seen how many there are.

  * `Awaited`: the name that the words before have announced.
  * `Frame`: a body that is being read, its scope and its open braces.
  * `Machine.step`, `Machine.run`: one token, and a list of them.
  * `Reader.exceeds`: whether some text takes more nested calls than there may be.
-/
import CodeAtlas.Source.Reader

namespace CodeAtlas

namespace Reader

/-! ## 1. The machine -/

/-- The name that is announced by the words read last. -/
inductive Awaited where
  | nothing
  | package
  | imported
  /-- The name after `import static`. -/
  | staticMember
  | typeName
  deriving DecidableEq, Repr

/-- What a word announces that is not itself a name. -/
def Awaited.after (language : Language) (keyword : Text) : Awaited :=
  if keyword == "package".toList then .package
  else if keyword == "import".toList then .imported
  else if language.typeKeywords.contains keyword then .typeName
  else .nothing

/-- A body that is being read: the names of the types around its declarations, each with a dot
after it, and the number of its open braces. -/
structure Frame where
  scope : Text
  depth : Nat
  deriving DecidableEq, Repr

/-- What has been read, what is awaited, the innermost body and the bodies around it. The last
frame belongs to the file. -/
structure Machine where
  outline : Outline
  awaited : Awaited
  frame : Frame
  outer : List Frame
  deriving DecidableEq, Repr

namespace Machine

/-- Reads an opening brace. -/
def openBrace (machine : Machine) : Machine :=
  { machine with frame := ⟨machine.frame.scope, machine.frame.depth + 1⟩ }

/-- Reads a closing brace: the last one of a body ends it, except that nothing ends the file. -/
def closeBrace (machine : Machine) : Machine :=
  match machine.outer with
  | [] => { machine with frame := ⟨machine.frame.scope, machine.frame.depth - 1⟩ }
  | frame :: outer =>
    if machine.frame.depth ≤ 1 then { machine with frame, outer }
    else { machine with frame := ⟨machine.frame.scope, machine.frame.depth - 1⟩ }

/-- Reads a lexeme that is no awaited name. -/
def pass (language : Language) (machine : Machine) (lexeme : Lexeme) : Machine :=
  let seen := machine.outline.notice lexeme
  let next : Machine := { machine with outline := seen.1, awaited := .nothing }
  if seen.2 then next
  else
    match lexeme with
    | .sign '{' => next.openBrace
    | .sign '}' => next.closeBrace
    | .word keyword => { next with awaited := .after language keyword }
    | _ => next

/-- Reads one token. A token that is not the awaited name is read as if none were awaited. -/
def step (language : Language) (page : Text) (machine : Machine) (token : Token) : Machine :=
  match machine.awaited, token.lexeme with
  | .package, .word name =>
    { machine with outline := { machine.outline with package := name }, awaited := .nothing }
  | .imported, .word name =>
    if name == "static".toList then { machine with awaited := .staticMember }
    else
      { machine with outline := machine.outline.addImport (importedName name), awaited := .nothing }
  | .staticMember, .word name =>
    { machine with outline := machine.outline.addImport (importedName name), awaited := .nothing }
  | .typeName, .word name =>
    { outline := machine.outline.addType ⟨machine.frame.scope ++ name, page, token.line⟩
      awaited := .nothing
      frame := ⟨machine.frame.scope ++ name ++ ['.'], 0⟩
      outer := machine.frame :: machine.outer }
  | _, lexeme => machine.pass language lexeme

/-- Reads tokens one after the other. -/
def run (language : Language) (page : Text) (machine : Machine) (tokens : List Token) : Machine :=
  tokens.foldl (step language page) machine

/-- Whether more bodies are read inside one another than `limit`, now or after some of the
tokens. -/
def exceeds (language : Language) (limit : Nat) : Machine → List Token → Bool
  | machine, [] => limit < machine.outer.length
  | machine, token :: rest =>
    limit < machine.outer.length || exceeds language limit (machine.step language [] token) rest

end Machine

/-- The machine before the first token. -/
def start (language : Language) : Machine :=
  ⟨⟨[], language.implicitImports.map (⟨·⟩), [], false, false⟩, .nothing, ⟨[], 0⟩, []⟩

/-- Whether the types of a text are nested deeper than `limit`. -/
def exceeds (language : Language) (limit : Nat) (text : Text) : Bool :=
  (start language).exceeds language limit (Token.scan text)

end Reader

end CodeAtlas
