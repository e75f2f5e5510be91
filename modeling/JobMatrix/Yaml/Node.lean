import JobMatrix.Yaml.Event
import JobMatrix.Yaml.Tag

set_option autoImplicit false

/-!
The nodes of a document. They form a graph: an alias leads to the node of its anchor, which may
be one of the nodes around it.
-/

namespace JobMatrix.Yaml

/-- What a node holds; nodes are named by their numbers. -/
inductive Content where
  | scalar (text : Text)
  | sequence (items : List Nat)
  | mapping (pairs : List (Nat × Nat))
  deriving DecidableEq, Repr, Inhabited

structure Node where
  tag : Tag
  start : Mark
  content : Content
  deriving Repr

/-- The name of a node's shape in messages. -/
def Content.shape : Content → String
  | .scalar _ => "scalar"
  | .sequence _ => "sequence"
  | .mapping _ => "mapping"

/-- The nodes of a document by number; the root has the number zero. -/
abbrev Graph := Array Node

namespace Graph

def content (g : Graph) (id : Nat) : Content := (g[id]?.map Node.content).getD (.scalar [])

def tag (g : Graph) (id : Nat) : Tag := (g[id]?.map Node.tag).getD .null

def start (g : Graph) (id : Nat) : Mark := (g[id]?.map Node.start).getD ⟨0, 0, 0⟩

/-- The pairs of a mapping. -/
def pairs (g : Graph) (id : Nat) : List (Nat × Nat) :=
  match g.content id with
  | .mapping ps => ps
  | _ => []

def setContent (g : Graph) (id : Nat) (content : Content) : Graph :=
  g.modify id fun n => { n with content }

def setTag (g : Graph) (id : Nat) (tag : Tag) : Graph := g.modify id fun n => { n with tag }

end Graph

/-- A collection that is being read: its number, and its nodes so far, last first. -/
structure OpenCollection where
  id : Nat
  isMapping : Bool
  nodes : List Nat := []

/-- A document that is being read. -/
structure Composition where
  graph : Graph := #[]
  anchors : Entries Nat := []
  stack : List OpenCollection := []
  /-- Whether a document has begun. -/
  begun : Bool := false

namespace Composition

/-- Takes the nodes of a mapping two by two. -/
def pairUp : List Nat → List (Nat × Nat)
  | key :: value :: rest => (key, value) :: pairUp rest
  | _ => []

/-- Puts a node into the innermost collection. -/
def place (c : Composition) (id : Nat) : Composition :=
  match c.stack with
  | [] => c
  | top :: rest => { c with stack := { top with nodes := id :: top.nodes } :: rest }

/-- Refuses an anchor that is there already, and notes it otherwise. -/
def anchorAt (c : Composition) (anchor : Option String) (m : Mark) : Reading Composition :=
  match anchor with
  | none => .ok c
  | some name =>
    match c.anchors.get? name with
    | some first => .error (.report
        ⟨some ("found duplicate anchor " ++ Text.quoted name ++ "; first occurrence"),
          some (c.graph.start first), "second occurrence", m⟩)
    | none => .ok { c with anchors := c.anchors.set name c.graph.size }

/-- Collections lie within one another up to this depth. -/
def depthReach : Nat := 488

/-- Begins a collection with its number already known to aliases inside it. -/
def begin (c : Composition) (anchor : Option String) (node : Node) (isMapping : Bool) :
    Reading Composition := do
  if depthReach ≤ c.stack.length then throw .tooDeep
  let c ← c.anchorAt anchor node.start
  let id := c.graph.size
  let c := c.place id
  return { c with graph := c.graph.push node, stack := ⟨id, isMapping, []⟩ :: c.stack }

/-- Ends the innermost collection. -/
def finish (c : Composition) : Composition :=
  match c.stack with
  | [] => c
  | top :: rest =>
    let nodes := top.nodes.reverse
    let content := if top.isMapping then .mapping (pairUp nodes) else .sequence nodes
    { c with graph := c.graph.setContent top.id content, stack := rest }

/-- Reads an event. A second document is refused. -/
def step (c : Composition) (e : Event) : Reading Composition :=
  match e.kind with
  | .documentStart =>
    if c.begun then .error (.report ⟨some "expected a single document in the stream",
      some (c.graph.start 0), "but found another document", e.start⟩)
    else .ok { c with begun := true }
  | .documentEnd | .streamEnd => .ok c
  | .alias name =>
    match c.anchors.get? name with
    | some id => .ok (c.place id)
    | none => .error (.report ⟨none, none, "found undefined alias " ++ Text.quoted name, e.start⟩)
  | .scalar anchor tag plain text => do
    let c ← c.anchorAt anchor e.start
    let tag := match tag with
      | some t => Tag.ofText t
      | none => if plain then Tag.suggested text else .str
    let id := c.graph.size
    return { c.place id with graph := c.graph.push ⟨tag, e.start, .scalar text⟩ }
  | .sequenceStart anchor tag =>
    c.begin anchor ⟨(tag.map Tag.ofText).getD .seq, e.start, .sequence []⟩ false
  | .mappingStart anchor tag =>
    c.begin anchor ⟨(tag.map Tag.ofText).getD .map, e.start, .mapping []⟩ true
  | .sequenceEnd | .mappingEnd => .ok c.finish

end Composition

/-- The nodes of the only document of a text; there are none when the text has no document. -/
def Graph.ofEvents (stream : EventStream) : Reading Graph := do
  let c ← stream.events.foldlM Composition.step {}
  match stream.fault with
  | some e => throw e
  | none => return c.graph

def Graph.ofText (text : List Char) : Reading Graph := do
  checkCharacters text
  Graph.ofEvents (.ofTokens (.ofText text))

end JobMatrix.Yaml
