import JobMatrix.Proofs.Yaml.Regular

set_option autoImplicit false

/-!
Meeting the nodes of a document. In a regular graph every node that is to be made can be met, and
the invariant of the construction is kept: what has been met is to be made, scalars have their
values, and collections are pending, being filled or done.
-/

namespace JobMatrix.Yaml

namespace Construction

/-- The data of a node that has been met. -/
def made? (c : Construction) (id : Nat) : Option Cell := (c.cells[id]?).getD none

/-- A later state of the making of the same data. -/
structure Extends (c c' : Construction) : Prop where
  graph : c'.graph = c.graph
  made : ∀ id cell, c.made? id = some cell → c'.made? id = some cell

/-- The state when the collections `done` are being filled or have been. -/
structure Invariant (g : Graph) (done : List Nat) (c : Construction) : Prop where
  graph : g.Follows c.graph done
  size : c.cells.size = g.size
  constructed : ∀ id, (c.made? id).isSome → g.Constructed id
  scalar : ∀ id text, g.content id = .scalar text → ∀ cell ∈ c.made? id,
    ∃ v, scalarValue g id = .ok v ∧ cell = .scalar v
  collection : ∀ id, (c.made? id).isSome → (∃ text, g.content id = .scalar text) ∨
    id ∈ c.pending ∨ id ∈ done
  pending : ∀ id ∈ c.pending, (c.made? id).isSome ∧ id ∉ done ∧ ∀ text, g.content id ≠ .scalar text
  distinct : c.pending.Nodup
  done : done.Nodup ∧ ∀ id ∈ done, (c.made? id).isSome

variable {g : Graph} {done : List Nat} {c c' c'' : Construction} {id : Nat}

theorem Extends.refl (c : Construction) : Extends c c := ⟨rfl, fun _ _ h => h⟩

theorem Extends.trans (h : Extends c c') (h' : Extends c' c'') : Extends c c'' :=
  ⟨h'.graph.trans h.graph, fun id cell found => h'.made id cell (h.made id cell found)⟩

theorem Extends.isSome (h : Extends c c') (met : (c.made? id).isSome) : (c'.made? id).isSome := by
  obtain ⟨cell, found⟩ := Option.isSome_iff_exists.mp met
  rw [h.made id cell found]
  rfl

theorem made?_start (g : Graph) (id : Nat) :
    made? { graph := g, cells := Array.replicate g.size none } id = none := by
  simp only [made?, Array.getElem?_replicate]
  split <;> rfl

theorem made?_set (c : Construction) (id : Nat) (cell : Cell) (graph : Graph) (pending : List Nat)
    (other : Nat) :
    made? ⟨graph, c.cells.setIfInBounds id (some cell), pending⟩ other =
      if id = other ∧ id < c.cells.size then some cell else c.made? other := by
  simp only [made?, Array.getElem?_setIfInBounds]
  by_cases here : id = other
  · subst here
    by_cases inside : id < c.cells.size <;> simp [inside]
  · simp [here]

/-- What holds of the data of every node holds of it when the data of one node is set. -/
theorem forall_made?_set {P : Nat → Option Cell → Prop} {cell : Cell}
    (kept : ∀ other, P other (c.made? other)) (here : P id (some cell)) (graph : Graph)
    (pending : List Nat) (other : Nat) :
    P other (made? ⟨graph, c.cells.setIfInBounds id (some cell), pending⟩ other) := by
  rw [made?_set]
  split
  next inside => exact inside.1 ▸ here
  next => exact kept other

theorem isSome_set {cell : Cell} {graph : Graph} {pending : List Nat} {other : Nat}
    (met : (c.made? other).isSome) :
    (made? ⟨graph, c.cells.setIfInBounds id (some cell), pending⟩ other).isSome := by
  rw [made?_set]
  split
  next => rfl
  next => exact met

theorem visit_met (met : (c.made? id).isSome) : c.visit id = .ok c := if_pos met

theorem visit_scalar {v : Value} (new : c.made? id = none) (tag : emptyCell? (c.graph.tag id) = none)
    (read : scalarValue c.graph id = .ok v) :
    c.visit id = .ok { c with cells := c.cells.setIfInBounds id (some (.scalar v)) } := by
  unfold made? at new
  simp only [visit, new, tag, read]
  rfl

theorem visit_collection {cell : Cell} (new : c.made? id = none)
    (tag : emptyCell? (c.graph.tag id) = some cell) :
    c.visit id = .ok { c with
      cells := c.cells.setIfInBounds id (some cell), pending := c.pending ++ [id] } := by
  unfold made? at new
  simp only [visit, new, tag]
  rfl

theorem extends_set {cell : Cell} (new : c.made? id = none) (pending : List Nat) :
    Extends c { c with cells := c.cells.setIfInBounds id (some cell), pending } := by
  refine ⟨rfl, fun other cell' found => ?_⟩
  rw [made?_set, if_neg ?_]
  · exact found
  · rintro ⟨rfl, -⟩
    simp [new] at found

/-- The data of a node is set. If the node is a collection, then it waits to be filled or is done. -/
theorem Invariant.setCell {cell : Cell} {pending : List Nat} (inv : Invariant g done c)
    (constructed : g.Constructed id) (inside : id < g.size)
    (scalar : ∀ text, g.content id = .scalar text →
      ∃ v, scalarValue g id = .ok v ∧ cell = .scalar v)
    (kept : ∀ other ∈ c.pending, other ∈ pending)
    (place : (∃ text, g.content id = .scalar text) ∨ id ∈ pending ∨ id ∈ done)
    (waits : ∀ other ∈ pending, other ∈ c.pending ∨
      other = id ∧ id ∉ done ∧ ∀ text, g.content id ≠ .scalar text)
    (distinct : pending.Nodup) :
    Invariant g done { c with cells := c.cells.setIfInBounds id (some cell), pending } := by
  refine ⟨inv.graph, by simp [inv.size], ?_, ?_, ?_, ?_, distinct, inv.done.1, ?_⟩
  · exact forall_made?_set (P := fun other made => made.isSome → g.Constructed other)
      inv.constructed (fun _ => constructed) _ _
  · refine forall_made?_set (P := fun other made => ∀ text, g.content other = .scalar text →
      ∀ cell ∈ made, ∃ v, scalarValue g other = .ok v ∧ cell = .scalar v) inv.scalar ?_ _ _
    intro text isScalar cell' found
    obtain rfl := Option.some.inj found
    exact scalar text isScalar
  · refine forall_made?_set (P := fun other made => made.isSome →
      (∃ text, g.content other = .scalar text) ∨ other ∈ pending ∨ other ∈ done) ?_ ?_ _ _
    · intro other met
      exact (inv.collection other met).imp_right (Or.imp_left (kept other))
    · intro _
      exact place
  · intro other member
    rcases waits other member with before | ⟨rfl, notDone, isCollection⟩
    · obtain ⟨met, rest⟩ := inv.pending other before
      exact ⟨isSome_set met, rest⟩
    · refine ⟨?_, notDone, isCollection⟩
      rw [made?_set, if_pos ⟨rfl, inv.size ▸ inside⟩]
      rfl
  · exact fun other member => isSome_set (inv.done.2 other member)

theorem Invariant.visit (regular : g.Regular) (inv : Invariant g done c)
    (constructed : g.Constructed id) (inside : id < g.size) :
    ∃ c', c.visit id = .ok c' ∧ Invariant g done c' ∧ Extends c c' ∧ (c'.made? id).isSome := by
  by_cases met : (c.made? id).isSome
  · exact ⟨c, visit_met met, inv, .refl c, met⟩
  have new : c.made? id = none := Option.not_isSome_iff_eq_none.mp met
  have here (cell : Cell) (pending : List Nat) :
      (made? { c with cells := c.cells.setIfInBounds id (some cell), pending } id).isSome := by
    rw [made?_set, if_pos ⟨rfl, inv.size ▸ inside⟩]
    rfl
  -- A collection gets an empty cell and goes to the end of what is pending.
  have collection (cell : Cell) (tag : emptyCell? (g.tag id) = some cell)
      (noScalar : ∀ text, g.content id ≠ .scalar text) :
      ∃ c', c.visit id = .ok c' ∧ Invariant g done c' ∧ Extends c c' ∧ (c'.made? id).isSome := by
    have notDone : id ∉ done := fun member => met (inv.done.2 id member)
    have notPending : id ∉ c.pending := fun member => met (inv.pending id member).1
    refine ⟨_, visit_collection new (inv.graph.tag ▸ tag), ?_, extends_set new _, here _ _⟩
    apply inv.setCell constructed inside
    · exact fun text isScalar => absurd isScalar (noScalar text)
    · exact fun other => List.mem_append_left [id]
    · exact .inr (.inl (List.mem_append_right c.pending (List.mem_singleton_self id)))
    · intro other member
      exact (List.mem_append.mp member).imp_right fun last =>
        ⟨List.mem_singleton.mp last, notDone, noScalar⟩
    · rw [← List.concat_eq_append]
      exact inv.distinct.concat notPending
  cases content : g.content id with
  | scalar text =>
    obtain ⟨v, read⟩ := regular.scalars id constructed text content
    have tag := emptyCell?_of_scalarValue content read
    refine ⟨_, visit_scalar new (inv.graph.tag ▸ tag) ((inv.graph.scalar content).2 ▸ read), ?_,
      extends_set new _, here _ _⟩
    exact inv.setCell constructed inside (fun _ _ => ⟨v, read, rfl⟩) (fun _ waits => waits)
      (.inl ⟨text, content⟩) (fun _ => .inl) inv.distinct
  | sequence items =>
    apply collection (.list [])
    · rw [regular.sequences id constructed items content]
      rfl
    · simp [content]
  | mapping pairs =>
    apply collection (.map [])
    · rw [regular.mappings id constructed ⟨pairs, content⟩]
      rfl
    · simp [content]

theorem Invariant.withGraph {h : Graph} (inv : Invariant g done c) (follows : g.Follows h done) :
    Invariant g done { c with graph := h } :=
  { inv with graph := follows }

end Construction

end JobMatrix.Yaml
