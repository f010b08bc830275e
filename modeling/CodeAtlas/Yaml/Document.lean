/-
  File:      CodeAtlas/Yaml/Document.lean
  Subject:   The values of a configuration text.

  A scalar gets its value when it is met. A collection is first only put down,
  and filled in its turn, after all collections that were met before it; so of
  several faults the one that lies least deep is reported, and a collection can
  hold itself.

  * `Document`: the values of all nodes, and of the one that holds the others.
  * `Document.ofGraph`: the values of a graph.
  * `Document.read`: the values of a text, if it has a document.
-/
import CodeAtlas.Yaml.Value

namespace CodeAtlas.Yaml

/-- The values of a text. -/
structure Document where
  root : Value
  values : Array Value

namespace Document

/-- The value of a node. -/
def part (document : Document) (id : NodeId) : Value := document.values.getD id .null

/-- The value of a key in a mapping: the last of several, or else null. -/
def field (document : Document) (value : Value) (key : Text) : Value :=
  match value with
  | .map entries =>
    match entries.reverse.lookup key with
    | some id => document.part id
    | none => .null
  | _ => .null

end Document

/-! ## 1. Steps -/

/-- The nodes, which change when mappings are taken over by others, the values so far, and the
collections in the order in which they are filled. -/
structure Building where
  nodes : Array Node
  values : Array (Option Value)
  collections : Array NodeId

/-- A step of building. -/
abbrev Build := StateT Building (Except Fault)

namespace Build

/-- Fails. -/
def fail {α : Type} (why : Text) : Build α := throw (.malformed why)

/-- A node. Every number in a graph is that of a node. -/
def node (id : NodeId) : Build Node := do
  return (← get).nodes.getD id ⟨.null, .scalar []⟩

/-- Puts a node in the place of another. -/
def setNode (id : NodeId) (node : Node) : Build Unit :=
  modify fun building => { building with nodes := building.nodes.setIfInBounds id node }

/-- Puts down the value of a node. -/
def setValue (id : NodeId) (value : Value) : Build Unit :=
  modify fun building => { building with values := building.values.setIfInBounds id (some value) }

/-- The entries of a mapping; nothing for other nodes. -/
def entries (id : NodeId) : Build (List (NodeId × NodeId)) := do
  match (← node id).content with
  | .mapping entries => return entries
  | _ => return []

/-- Gives entries to a mapping. -/
def setEntries (id : NodeId) (entries : List (NodeId × NodeId)) : Build Unit := do
  setNode id { ← node id with content := .mapping entries }

/-! ## 2. Mappings that take over others -/

/-- The entries before and after the first one with a merge key, and its value. -/
def cutMerge? (nodes : Array Node) :
    List (NodeId × NodeId) → Option (List (NodeId × NodeId) × NodeId × List (NodeId × NodeId))
  | [] => none
  | (key, value) :: rest =>
    if nodes[key]?.any (·.tag == .merge) then some ([], value, rest)
    else (cutMerge? nodes rest).map fun (before, found) => ((key, value) :: before, found)

/-- As a key, the sign for a default value is a text. -/
def settleKey (key : NodeId) : Build Unit := do
  let found ← node key
  if found.tag == .value then setNode key { found with tag := .str }

/-- Puts the entries of the mappings under merge keys before those of a mapping itself. The
last mapping of a sequence comes first. Each round takes away one merge key, so that their
number bounds the depth. -/
def flatten (merged : List (NodeId × NodeId)) (id : NodeId) : (fuel : Nat) → Build Unit
  | 0 => throw .endless
  | fuel + 1 => do
    let own ← entries id
    match cutMerge? (← get).nodes own with
    | none =>
      own.forM fun (key, _) => settleKey key
      setEntries id (merged ++ own)
    | some (before, value, after) =>
      setEntries id (before ++ after)
      let taken (source : NodeId) : Build (List (NodeId × NodeId)) := do
        match (← node source).content with
        | .mapping _ =>
          flatten [] source fuel
          entries source
        | _ => fail "a merge key without a mapping"
      let more ←
        match (← node value).content with
        | .sequence items => do pure (← items.mapM taken).reverse.flatten
        | _ => taken value
      flatten (merged ++ more) id fuel

/-- The number of entries of all mappings. -/
def entryCount (nodes : Array Node) : Nat :=
  nodes.foldl (fun count node =>
    match node.content with
    | .mapping entries => count + entries.length
    | _ => count) 0

/-! ## 3. Values -/

/-- The text of a scalar. A mapping stands for its default value. -/
def scalarText (id : NodeId) : (fuel : Nat) → Build Text
  | 0 => throw .endless
  | fuel + 1 => do
    match (← node id).content with
    | .scalar text => return text
    | .mapping entries =>
      let nodes := (← get).nodes
      match entries.find? fun (key, _) => nodes[key]?.any (·.tag == .value) with
      | some (_, value) => scalarText value fuel
      | none => fail "a mapping in the place of a scalar"
    | .sequence _ => fail "a sequence in the place of a scalar"

/-- Puts down a collection, which is filled later. -/
def addCollection (id : NodeId) : Build Unit :=
  modify fun building => { building with collections := building.collections.push id }

/-- The value of a node that has none so far. -/
def newValue (id : NodeId) : Build Value := do
  let found ← node id
  match found.tag with
  | .seq =>
    addCollection id
    return .list []
  | .map =>
    addCollection id
    return .map []
  | .set | .omap | .pairs =>
    addCollection id
    return .other
  | .merge | .value | .unknown => fail "a node of another kind"
  | .timestamp =>
    let text ← scalarText id ((← get).nodes.size + 1)
    match found.content with
    | .scalar _ => liftM (scalarValue .timestamp text)
    | _ => throw .collectionAsTime
  | tag =>
    let text ← scalarText id ((← get).nodes.size + 1)
    liftM (scalarValue tag text)

/-- The value of a node. -/
def value (id : NodeId) : Build Value := do
  match (← get).values.getD id none with
  | some known => return known
  | none =>
    let made ← newValue id
    setValue id made
    return made

/-- Key and value of an entry; what the key is matters if it is a text. -/
def entry (key item : NodeId) : Build (Option (Text × NodeId)) := do
  let name ← value key
  if (← node key).tag.isCollection then fail "a collection is a key"
  else
    let _ ← value item
    match name with
    | .text name => return some (name, item)
    | _ => return none

/-- A pair, which is written as a mapping with one entry. -/
def pair (id : NodeId) : Build Unit := do
  match (← node id).content with
  | .mapping [(key, item)] =>
    let _ ← value key
    let _ ← value item
  | _ => fail "not a mapping with one entry"

/-- Fills a collection. -/
def fill (id : NodeId) : Build Unit := do
  let found ← node id
  match found.tag, found.content with
  | .seq, .sequence items =>
    items.forM fun item => do
      let _ ← value item
    setValue id (.list items)
  | .omap, .sequence items | .pairs, .sequence items => items.forM pair
  | .map, .mapping _ | .set, .mapping _ =>
    flatten [] id (entryCount (← get).nodes + 1)
    let named ← (← entries id).mapM fun (key, item) => entry key item
    if found.tag == .map then setValue id (.map (named.filterMap fun named => named))
  | _, _ => fail "a collection of another kind"

/-- Fills the collections from the `first` on, also those that are met on the way. Each node is
met once, so that their number bounds the rounds. -/
def fillFrom (first : Nat) : (fuel : Nat) → Build Unit
  | 0 => pure ()
  | fuel + 1 => do
    match (← get).collections[first]? with
    | some id =>
      fill id
      fillFrom (first + 1) fuel
    | none => pure ()

end Build

namespace Document

/-- The values of a graph. -/
def ofGraph (graph : Graph) : Except Fault Document := do
  let size := graph.nodes.size
  let build : Build Unit := do
    let _ ← Build.value graph.root
    Build.fillFrom 0 size
  let ((), built) ← build.run ⟨graph.nodes, Array.replicate size none, #[]⟩
  let values := built.values.map (·.getD .null)
  return ⟨values.getD graph.root .null, values⟩

/-- The values of a text; null without a document. -/
def read (text : Text) : Except Fault Document := do
  match ← (Graph.ofTokens (Tokens.ofText text)).mapError Fault.ofScan with
  | none => return ⟨.null, #[]⟩
  | some graph => ofGraph graph

end Document

end CodeAtlas.Yaml
