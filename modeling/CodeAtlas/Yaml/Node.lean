/-
  File:      CodeAtlas/Yaml/Node.lean
  Subject:   The graph of a configuration text.

  A node knows the nodes inside it by their numbers, so that a node with a name
  can stand in several places, even inside itself, and is held only once.

  * `Node`, `Graph`: scalars, sequences and mappings.
  * `Graph.ofTokens`: the graph of the only document of a text, if there is one.

  Reading is by descent on the tokens. `fuel` bounds its depth, which no text
  exceeds by more than a constant for each of its tokens.
-/
import CodeAtlas.Yaml.Tag
import CodeAtlas.Yaml.Token

namespace CodeAtlas.Yaml

/-- The number of a node in its graph. -/
abbrev NodeId := Nat

/-- What a node holds. -/
inductive Content where
  | scalar (text : Text)
  | sequence (items : List NodeId)
  | mapping (entries : List (NodeId × NodeId))
  deriving DecidableEq, Repr

/-- A node. -/
structure Node where
  tag : Tag
  content : Content
  deriving DecidableEq, Repr

/-- The nodes of a document, and the one that holds the others. -/
structure Graph where
  nodes : Array Node
  root : NodeId

/-! ## 1. Steps -/

/-- What is left to read, the nodes so far, those with a name, and the short forms of tags. -/
structure Reading where
  tokens : Tokens
  nodes : Array Node
  anchors : List (Text × NodeId)
  handles : List (Text × Text)

/-- A step of reading. -/
abbrev Read := StateT Reading (Except ScanFault)

namespace Read

/-- Fails. -/
def fail {α : Type} (why : Text) : Read α := throw (.malformed why)

/-- The next token. Where a fault ends the tokens it is met. -/
def peek : Read (Option Token) := do
  let tokens := (← get).tokens
  match tokens.list, tokens.fault with
  | [], some fault => throw fault
  | list, _ => return list.head?

/-- Moves over a token. -/
def advance : Read Unit :=
  modify fun reading =>
    { reading with tokens := { reading.tokens with list := reading.tokens.list.tail } }

/-- Whether the next token is one of `tokens`. -/
def atAny (tokens : List Token) : Read Bool := do
  return (← peek).any tokens.contains

/-- Moves over a token if it is the next one. -/
def skip? (token : Token) : Read Bool := do
  if ← atAny [token] then
    advance
    return true
  else return false

/-- Moves over a token, which must be the next one. -/
def expect (token : Token) (why : Text) : Read Unit := do
  if !(← skip? token) then fail why

/-- Adds a node. -/
def add (node : Node) : Read NodeId := do
  let reading ← get
  set { reading with nodes := reading.nodes.push node }
  return reading.nodes.size

/-- Adds an empty scalar. -/
def addEmpty : Read NodeId := add ⟨.null, .scalar []⟩

/-- Gives a name to a node. -/
def bind (name : Option Text) (id : NodeId) : Read Unit :=
  match name with
  | none => pure ()
  | some name => modify fun reading => { reading with anchors := (name, id) :: reading.anchors }

/-- Adds a node under a name. -/
def addNamed (name : Option Text) (node : Node) : Read NodeId := do
  let id ← add node
  bind name id
  return id

/-- Adds a collection, which can be named inside itself. -/
def collection (name : Option Text) (tag : Tag) (read : Read Content) : Read NodeId := do
  let id ← addNamed name ⟨tag, .sequence []⟩
  let content ← read
  modify fun reading => { reading with nodes := reading.nodes.setIfInBounds id ⟨tag, content⟩ }
  return id

/-! ## 2. Names and tags -/

/-- A name before a node. -/
def anchor? : Read (Option Text) := do
  match ← peek with
  | some (.anchor name) =>
    advance
    return some name
  | _ => return none

/-- A tag before a node, as it is written. -/
def tag? : Read (Option (Option Text × Text)) := do
  match ← peek with
  | some (.tag handle name) =>
    advance
    return some (handle, name)
  | _ => return none

/-- A tag in full. -/
def fullTag (handle : Option Text) (name : Text) : Read Text := do
  match handle with
  | none => return name
  | some handle =>
    match (← get).handles.lookup handle with
    | some start => return start ++ name
    | none => fail "unknown tag handle"

/-- Name and tag before a node, in either order. -/
def properties : Read (Option Text × Option Text) := do
  let before ← anchor?
  let tag ← tag?
  let name ← if before.isSome || tag.isNone then pure before else anchor?
  match tag with
  | none => return (name, none)
  | some (handle, written) => return (name, some (← fullTag handle written))

/-- A name may be given once. -/
def checkFree (name : Option Text) : Read Unit := do
  let reading ← get
  if name.any fun name => (reading.anchors.lookup name).isSome then fail "a name given twice"

/-- The kind of a scalar. -/
def scalarTag (tag : Option Text) (text : Text) (plain : Bool) : Tag :=
  match tag with
  | none => if plain then .ofPlain text else .str
  | some name => if name == ['!'] then .ofPlain text else .ofName name

/-- The kind of a collection. -/
def collectionTag (tag : Option Text) (usual : Tag) : Tag :=
  match tag with
  | some name => if name == ['!'] then usual else .ofName name
  | none => usual

/-! ## 3. Nodes -/

/-- A name or a tag may stand for an empty scalar. -/
def noContent (name tag : Option Text) : Read NodeId := do
  if name.isNone && tag.isNone then fail "a node is missing"
  else addNamed name ⟨scalarTag tag [] true, .scalar []⟩

/-- Reads a node, or takes an empty one where one of `ends` follows. -/
def orEmpty (ends : List Token) (read : Read NodeId) : Read NodeId := do
  if ← atAny ends then addEmpty else read

/-- Reads a value if its colon follows. -/
def valueOrEmpty (ends : List Token) (read : Read NodeId) : Read NodeId := do
  if ← skip? .value then orEmpty ends read else addEmpty

mutual

/-- A node. Collections in blocks, and sequences that are not indented, only where they are
allowed. -/
def node (block indentless : Bool) : (fuel : Nat) → Read NodeId
  | 0 => fail "too deep"
  | fuel + 1 => do
    match ← peek with
    | some (.alias name) =>
      advance
      match (← get).anchors.lookup name with
      | some id => return id
      | none => fail "an unknown name"
    | _ =>
      let (name, tag) ← properties
      let next ← peek
      checkFree name
      let seq (items : Read (List NodeId)) : Read NodeId :=
        collection name (collectionTag tag .seq) do return .sequence (← items)
      let map (entries : Read (List (NodeId × NodeId))) : Read NodeId :=
        collection name (collectionTag tag .map) do return .mapping (← entries)
      if indentless && next == some .blockEntry then seq (indentlessItems fuel)
      else
        match next with
        | some (.scalar text plain) =>
          advance
          addNamed name ⟨scalarTag tag text plain, .scalar text⟩
        | some .flowSequenceStart =>
          advance
          seq (flowItems true fuel)
        | some .flowMappingStart =>
          advance
          map (flowEntries true fuel)
        | some .blockSequenceStart =>
          if block then
            advance
            seq (blockItems fuel)
          else noContent name tag
        | some .blockMappingStart =>
          if block then
            advance
            map (blockEntries fuel)
          else noContent name tag
        | _ => noContent name tag

/-- The entries of a sequence in a block. -/
def blockItems : (fuel : Nat) → Read (List NodeId)
  | 0 => fail "too deep"
  | fuel + 1 => do
    if ← skip? .blockEntry then
      let item ← orEmpty [.blockEntry, .blockEnd] (node true false fuel)
      return item :: (← blockItems fuel)
    else
      expect .blockEnd "a sequence does not end"
      return []

/-- The entries of a sequence that is indented no deeper than the mapping around it. -/
def indentlessItems : (fuel : Nat) → Read (List NodeId)
  | 0 => fail "too deep"
  | fuel + 1 => do
    if ← skip? .blockEntry then
      let item ← orEmpty [.blockEntry, .key, .value, .blockEnd] (node true false fuel)
      return item :: (← indentlessItems fuel)
    else return []

/-- The entries of a mapping in a block. -/
def blockEntries : (fuel : Nat) → Read (List (NodeId × NodeId))
  | 0 => fail "too deep"
  | fuel + 1 => do
    if ← skip? .key then
      let ends := [Token.key, .value, .blockEnd]
      let key ← orEmpty ends (node true true fuel)
      let value ← valueOrEmpty ends (node true true fuel)
      return (key, value) :: (← blockEntries fuel)
    else
      expect .blockEnd "a mapping does not end"
      return []

/-- The entries of a sequence between brackets. A single pair is a mapping of its own. -/
def flowItems (first : Bool) : (fuel : Nat) → Read (List NodeId)
  | 0 => fail "too deep"
  | fuel + 1 => do
    if ← skip? .flowSequenceEnd then return []
    else
      if !first then expect .flowEntry "a comma is missing"
      if ← skip? .key then
        let ends := [Token.flowEntry, .flowSequenceEnd]
        let key ← orEmpty (.value :: ends) (node false false fuel)
        let value ← valueOrEmpty ends (node false false fuel)
        let pair ← add ⟨.map, .mapping [(key, value)]⟩
        return pair :: (← flowItems false fuel)
      else if ← skip? .flowSequenceEnd then return []
      else
        let item ← node false false fuel
        return item :: (← flowItems false fuel)

/-- The entries of a mapping between brackets. -/
def flowEntries (first : Bool) : (fuel : Nat) → Read (List (NodeId × NodeId))
  | 0 => fail "too deep"
  | fuel + 1 => do
    if ← skip? .flowMappingEnd then return []
    else
      if !first then expect .flowEntry "a comma is missing"
      if ← skip? .key then
        let ends := [Token.flowEntry, .flowMappingEnd]
        let key ← orEmpty (.value :: ends) (node false false fuel)
        let value ← valueOrEmpty ends (node false false fuel)
        return (key, value) :: (← flowEntries false fuel)
      else if ← skip? .flowMappingEnd then return []
      else
        let key ← node false false fuel
        let value ← addEmpty
        return (key, value) :: (← flowEntries false fuel)

end

/-! ## 4. Documents -/

/-- The short forms that every document has. -/
def usualHandles : List (Text × Text) :=
  [(['!'], ['!']), (['!', '!'], Tag.standardStart)]

/-- The directives before a document: at most one version, which must be 1, and at most one
meaning for each short form. -/
def directives (versionSeen : Bool) (own : List (Text × Text)) :
    (fuel : Nat) → Read (List (Text × Text))
  | 0 => fail "too deep"
  | fuel + 1 => do
    match ← peek with
    | some (.version major) =>
      if versionSeen then fail "two versions"
      else if major != 1 then fail "an unknown version"
      else
        advance
        directives true own fuel
    | some (.shorthand handle start) =>
      if (own.lookup handle).isSome then fail "a tag handle given twice"
      else
        advance
        directives versionSeen ((handle, start) :: own) fuel
    | some .directive =>
      advance
      directives versionSeen own fuel
    | _ => return own

/-- Moves over marks for the end of a document. -/
def skipEnds : (fuel : Nat) → Read Unit
  | 0 => pure ()
  | fuel + 1 => do
    if ← skip? .documentEnd then skipEnds fuel

/-- Whether a directive or a start mark is next. -/
def atStart : Read Bool := do
  match ← peek with
  | some (.version _) | some (.shorthand _ _) | some .directive | some .documentStart => return true
  | _ => return false

/-- The directives and the mark that begin a document. -/
def beginning (fuel : Nat) : Read Unit := do
  let own ← directives false [] fuel
  expect .documentStart "a document does not start"
  modify fun reading => { reading with handles := own ++ usualHandles }

/-- The document of a text, if there is one; there may be no second one. -/
def document (fuel : Nat) : Read (Option NodeId) := do
  if ← atAny [.streamEnd] then return none
  else
    let root ←
      if ← atStart then
        beginning fuel
        if (← atStart) || (← atAny [.documentEnd, .streamEnd]) then addEmpty
        else node true false fuel
      else node true false fuel
    skipEnds fuel
    if ← atAny [.streamEnd] then return some root
    else
      beginning fuel
      fail "a second document"

end Read

/-- The graph of the only document of a text, if there is one. -/
def Graph.ofTokens (tokens : Tokens) : Except ScanFault (Option Graph) := do
  let (root, reading) ←
    (Read.document (4 * tokens.list.length + 8)).run ⟨tokens, #[], [], Read.usualHandles⟩
  return root.map fun id => ⟨reading.nodes, id⟩

end CodeAtlas.Yaml
