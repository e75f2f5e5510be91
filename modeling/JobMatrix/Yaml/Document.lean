import JobMatrix.Yaml.Node
import JobMatrix.Yaml.Scalar

set_option autoImplicit false

/-!
The data of a document. A collection is first made empty and filled later, in the order in which
collections were met, so that it can be part of itself. Before a mapping is filled its own keys
are compared: no two may be equal. Then the mappings it merges take its place in front of its own
pairs, in the nodes themselves, and so for every later reader of these nodes too.
-/

namespace JobMatrix.Yaml

/-- The data of a node. The parts of a collection are named by the numbers of their nodes. -/
inductive Cell where
  | scalar (v : Value)
  | list (items : List Nat)
  | map (entries : List (Value × Nat))
  | set (members : List Value)
  /-- A list of pairs. -/
  | pairs (items : List (Nat × Nat))
  deriving Repr, Inhabited

/-- A document whose data is being made. -/
structure Construction where
  graph : Graph
  cells : Array (Option Cell)
  /-- The collections to be filled, in this order. -/
  pending : List Nat := []

namespace Construction

/-- The context of problems with mappings. -/
def inMapping : String := "while constructing a mapping"

def problem {α : Type} (text : String) (m : Mark) : Reading α := .error (.report ⟨none, none, text, m⟩)

/-- The text of a scalar; of a mapping with the default key, that of its value. The count bounds
the length of a chain of such mappings. -/
def scalarText (g : Graph) : Nat → Nat → Reading Text
  | 0, _ => .error .endless
  | n + 1, id =>
    match g.content id with
    | .scalar text => .ok text
    | .mapping ps =>
      match ps.find? fun p => g.tag p.1 == .value with
      | some (_, v) => scalarText g n v
      | none => problem "expected a scalar node, but found mapping" (g.start id)
    | .sequence _ => problem "expected a scalar node, but found sequence" (g.start id)

def emptyCell? : Tag → Option Cell
  | .seq => some (.list [])
  | .map => some (.map [])
  | .set => some (.set [])
  | .omap | .pairs => some (.pairs [])
  | _ => none

/-- The value of a node with the tag of a scalar. -/
def scalarValue (g : Graph) (id : Nat) : Reading Value := do
  let tag := g.tag id
  let m := g.start id
  match Scalar.reader? id m tag with
  | none => problem ("could not determine a constructor for the tag " ++ Text.quoted tag.text) m
  | some read =>
    let text ← scalarText g (g.size + 1) id
    match tag, g.content id with
    | .timestamp, .mapping _ => throw (.scalar .timestampCollection)
    | _, _ => read text

/-- Makes the data of a node, unless it is there; collections are left to be filled. -/
def visit (c : Construction) (id : Nat) : Reading Construction := do
  if ((c.cells[id]?).getD none).isSome then return c
  match emptyCell? (c.graph.tag id) with
  | some cell => return { c with cells := c.cells.setIfInBounds id (some cell), pending := c.pending ++ [id] }
  | none =>
    let v ← scalarValue c.graph id
    return { c with cells := c.cells.setIfInBounds id (some (.scalar v)) }

/-- The key that a node stands for; a collection cannot be one. -/
def key? (c : Construction) (id : Nat) : Option Value :=
  match (c.cells[id]?).getD none with
  | some (.scalar v) => some v
  | _ => none

/-- Compares the keys that a mapping has of its own. -/
def checkKeys (m : Mark) : List Value → List (Nat × Nat) → Construction → Reading Construction
  | _, [], c => .ok c
  | seen, (k, _) :: rest, c =>
    if c.graph.tag k == .merge then checkKeys m seen rest c
    else do
      let c ← c.visit k
      match c.key? k with
      | none => checkKeys m seen rest c
      | some key =>
        if seen.any fun s => s.same key then
          match key.literal? with
          | some text => stop inMapping m ("found duplicate key " ++ text) (c.graph.start k)
          | none => throw .longKey
        else checkKeys m (key :: seen) rest c

/-- What a mapping tag makes of a node that is no mapping. -/
def notMapping {α : Type} (g : Graph) (id : Nat) : Reading α :=
  let shapeName (item : Nat) : String := match g.content item with
    | .scalar _ => "ScalarNode"
    | .sequence _ => "SequenceNode"
    | .mapping _ => "MappingNode"
  match g.content id with
  | .sequence (item :: _) => .error (.itemAsPair (shapeName item))
  | .scalar text =>
    if text.isEmpty then problem "expected a mapping node, but found scalar" (g.start id)
    else .error .charactersAsPairs
  | _ => problem "expected a mapping node, but found sequence" (g.start id)

/-- The first pair that merges, with the pairs before and after it. -/
def splitMerge (g : Graph) : List (Nat × Nat) → Option (List (Nat × Nat) × Nat × List (Nat × Nat))
  | [] => none
  | p :: rest =>
    if g.tag p.1 == .merge then some ([], p.2, rest)
    else (splitMerge g rest).map fun (before, v, after) => (p :: before, v, after)

/-- Gives the default key the tag of a text. -/
def plainKeys (g : Graph) (pairs : List (Nat × Nat)) : Graph :=
  pairs.foldl (fun g p => if g.tag p.1 == .value then g.setTag p.1 .str else g) g

/-- Replaces the pairs of a mapping that merge by what they merge, in front of the other pairs;
`merged` has been gathered already. Each round takes one such pair away, so their number in the
whole graph bounds the rounds. -/
def flatten : Nat → List (Nat × Nat) → Nat → Graph → Reading Graph
  | 0, _, _, g => .ok g
  | n + 1, merged, id, g =>
    match splitMerge g (g.pairs id) with
    | none =>
      let own := g.pairs id
      .ok ((plainKeys g own).setContent id (.mapping (merged ++ own)))
    | some (before, v, after) => do
      let g := g.setContent id (.mapping (before ++ after))
      match g.content v with
      | .mapping _ =>
        let g ← flatten n [] v g
        flatten n (merged ++ g.pairs v) id g
      | .sequence items =>
        -- Later mappings of a sequence stand first, and so count less.
        let (g, groups) ← items.foldlM (fun (g, groups) item => do
          match g.content item with
          | .mapping _ =>
            let g ← flatten n [] item g
            return (g, g.pairs item :: groups)
          | other =>
            stop inMapping (g.start id)
              ("expected a mapping for merging, but found " ++ other.shape) (g.start item))
          (g, ([] : List (List (Nat × Nat))))
        flatten n (merged ++ groups.flatten) id g
      | .scalar _ =>
        stop inMapping (g.start id)
          "expected a mapping or list of mappings for merging, but found scalar" (g.start v)

def mergeCount (g : Graph) : Nat :=
  g.toList.foldl (fun count node => match node.content with
    | .mapping ps => count + ps.countP fun p => g.tag p.1 == .merge
    | _ => count) 0

/-- Makes the entries of a mapping: a later pair of an equal key gives the value. -/
def entries (m : Mark) : List (Value × Nat) → List (Nat × Nat) → Construction →
    Reading (List (Value × Nat) × Construction)
  | es, [], c => .ok (es, c)
  | es, (k, v) :: rest, c => do
    let c ← c.visit k
    match c.key? k with
    | none => stop inMapping m "found unhashable key" (c.graph.start k)
    | some key =>
      let c ← c.visit v
      entries m (put Value.same es key v) rest c

/-- The entries of a node with the tag of a mapping or of a set. -/
def mappingEntries (c : Construction) (id : Nat) : Reading (List (Value × Nat) × Construction) := do
  match c.graph.content id with
  | .mapping ps =>
    let m := c.graph.start id
    let c ← checkKeys m [] ps c
    let graph ← flatten (mergeCount c.graph + 1) [] id c.graph
    entries m [] (graph.pairs id) { c with graph }
  | _ => notMapping c.graph id

/-- The items of a node with the tag of a list of pairs. -/
def pairItems (context : String) (m : Mark) : List Nat → Construction →
    Reading (List (Nat × Nat) × Construction)
  | [], c => .ok ([], c)
  | item :: rest, c => do
    match c.graph.content item with
    | .mapping [(k, v)] =>
      let c ← (← c.visit k).visit v
      let (more, c) ← pairItems context m rest c
      return ((k, v) :: more, c)
    | .mapping ps =>
      stop context m ("expected a single mapping item, but found " ++ toString ps.length ++ " items")
        (c.graph.start item)
    | other =>
      stop context m ("expected a mapping of length 1, but found " ++ other.shape)
        (c.graph.start item)

def fill (c : Construction) (id : Nat) : Reading Construction := do
  let m := c.graph.start id
  let (cell, c) ← match c.graph.tag id, c.graph.content id with
    | .map, _ => do
      let (es, c) ← c.mappingEntries id
      pure (Cell.map es, c)
    | .set, _ => do
      let (es, c) ← c.mappingEntries id
      pure (Cell.set (es.map Prod.fst), c)
    | .seq, .sequence items => do
      let c ← items.foldlM visit c
      pure (Cell.list items, c)
    | .seq, other => problem ("expected a sequence node, but found " ++ other.shape) m
    | tag, .sequence items => do
      let context := if tag == .omap then "while constructing an ordered map" else "while constructing pairs"
      let (ps, c) ← pairItems context m items c
      pure (Cell.pairs ps, c)
    | tag, other =>
      stop (if tag == .omap then "while constructing an ordered map" else "while constructing pairs") m
        ("expected a sequence, but found " ++ other.shape) m
  return { c with cells := c.cells.setIfInBounds id (some cell) }

/-- Fills the collections that are pending, first come, first served; the count bounds their
number. -/
def fillAll : Nat → Construction → Reading Construction
  | 0, c => .ok c
  | n + 1, c =>
    match c.pending with
    | [] => .ok c
    | id :: rest => do fillAll n (← fill { c with pending := rest } id)

end Construction

/-- The data of a document, with the number of its root. -/
structure Document where
  cells : Array (Option Cell)
  root : Nat := 0

namespace Document

/-- The data of a graph; no nodes stand for null. -/
def ofGraph (g : Graph) : Reading Document := do
  if g.isEmpty then return ⟨#[some (.scalar .null)], 0⟩
  let c ← Construction.visit { graph := g, cells := Array.replicate g.size none } 0
  let c ← c.fillAll (g.size + 1)
  return ⟨c.cells, 0⟩

def ofText (text : List Char) : Reading Document := do ofGraph (← Graph.ofText text)

def cell (d : Document) (id : Nat) : Cell := ((d.cells[id]?).getD none).getD (.scalar .null)

/-- The document with other data at its root, which every reference to the root leads to. -/
def withRoot (d : Document) (cell : Cell) : Document :=
  { d with cells := d.cells.setIfInBounds d.root (some cell) }

/-- The value of a node as a tree, where a node inside itself becomes a mark; `path` holds the
collections around the node, and the count bounds the depth. -/
def unfold (d : Document) : Nat → List Nat → Nat → Value
  | 0, _, _ => .null
  | n + 1, path, id =>
    let inner (part : Nat) : Value := unfold d n (id :: path) part
    match d.cell id with
    | .scalar v => v
    | .set members => .set members
    | .list items => if path.contains id then .again .list else .list (items.map inner)
    | .pairs items =>
      if path.contains id then .again .list
      else .list (items.map fun p => .tuple [inner p.1, inner p.2])
    | .map entries =>
      if path.contains id then .again .map else .map (entries.map fun e => (e.1, inner e.2))

def value (d : Document) (id : Nat) : Value := d.unfold (d.cells.size + 1) [] id

end Document

end JobMatrix.Yaml
