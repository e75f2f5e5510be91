import JobMatrix.Proofs.Entries
import JobMatrix.Proofs.Outcome
import JobMatrix.Yaml.Node

set_option autoImplicit false

/-!
Graphs of nodes. A change of one node is seen at this node and at no other, and in the graph of a
text every node that another one names is there.
-/

namespace JobMatrix.Yaml

/-- The nodes that a content names. -/
def Content.parts : Content → List Nat
  | .scalar _ => []
  | .sequence items => items
  | .mapping pairs => pairs.flatMap fun p => [p.1, p.2]

namespace Graph

variable {g : Graph}

theorem content_setContent (g : Graph) (id : Nat) (content : Content) (other : Nat) :
    (g.setContent id content).content other =
      if id = other ∧ id < g.size then content else g.content other := by
  simp only [Graph.content, setContent, Array.getElem?_modify]
  by_cases here : id = other
  · subst here
    by_cases inside : id < g.size <;> simp [inside]
  · simp [here]

@[simp] theorem tag_setContent (g : Graph) (id : Nat) (content : Content) :
    (g.setContent id content).tag = g.tag := by
  funext other
  simp only [Graph.tag, setContent, Array.getElem?_modify]
  split
  next => cases g[other]? <;> rfl
  next => rfl

@[simp] theorem start_setContent (g : Graph) (id : Nat) (content : Content) :
    (g.setContent id content).start = g.start := by
  funext other
  simp only [Graph.start, setContent, Array.getElem?_modify]
  split
  next => cases g[other]? <;> rfl
  next => rfl

@[simp] theorem size_setContent (g : Graph) (id : Nat) (content : Content) :
    (g.setContent id content).size = g.size := Array.size_modify

theorem setContent_self (g : Graph) (id : Nat) : g.setContent id (g.content id) = g := by
  apply Array.ext_getElem?
  intro other
  rw [setContent, Array.getElem?_modify]
  split
  next here =>
    subst here
    cases found : g[id]? with
    | none => rfl
    | some node => simp [Graph.content, found]
  next => rfl

theorem setContent_setContent (g : Graph) (id : Nat) (content content' : Content) :
    (g.setContent id content).setContent id content' = g.setContent id content' := by
  apply Array.ext_getElem?
  intro other
  simp only [setContent, Array.getElem?_modify]
  split
  next => cases g[other]? <;> rfl
  next => rfl

theorem content_push (g : Graph) (node : Node) (other : Nat) :
    Graph.content (g.push node) other =
      if other = g.size then node.content else g.content other := by
  simp only [Graph.content, Array.getElem?_push]
  split <;> rfl

/-- Every node that is named is below the bound. -/
def Within (n : Nat) (g : Graph) : Prop := ∀ id, ∀ part ∈ (g.content id).parts, part < n

/-- Every node that is named is there. -/
def Closed (g : Graph) : Prop := g.Within g.size

end Graph

namespace Composition

/-- All nodes that are named or will be are below the bound. -/
structure Within (n : Nat) (c : Composition) : Prop where
  graph : c.graph.Within n
  anchors : ∀ e ∈ c.anchors, e.2 < n
  stack : ∀ o ∈ c.stack, ∀ id ∈ o.nodes, id < n

theorem parts_pairUp (nodes : List Nat) :
    ∀ id ∈ (Content.mapping (pairUp nodes)).parts, id ∈ nodes := by
  fun_induction pairUp nodes with
  | case1 key value rest ih =>
    intro id member
    simp only [Content.parts, List.flatMap_cons, List.mem_append, List.mem_cons] at member ih ⊢
    grind
  | case2 => simp [Content.parts]

variable {c c' : Composition} {n m : Nat} {id : Nat}

theorem Within.mono (h : c.Within n) (more : n ≤ m) : c.Within m where
  graph id part member := Nat.lt_of_lt_of_le (h.graph id part member) more
  anchors e member := Nat.lt_of_lt_of_le (h.anchors e member) more
  stack o member id inside := Nat.lt_of_lt_of_le (h.stack o member id inside) more

@[simp] theorem graph_place (c : Composition) (id : Nat) : (c.place id).graph = c.graph := by
  unfold place
  split <;> rfl

theorem Within.place (h : c.Within n) (bound : id < n) : (c.place id).Within n := by
  unfold Composition.place
  split
  next => exact h
  next top rest stack =>
    refine ⟨h.graph, h.anchors, ?_⟩
    intro o member k inside
    rcases List.mem_cons.mp member with rfl | later
    · rcases List.mem_cons.mp inside with rfl | before
      · exact bound
      · exact h.stack top (stack ▸ List.mem_cons_self) k before
    · exact h.stack o (stack ▸ List.mem_cons_of_mem top later) k inside

theorem Within.anchorAt (h : c.Within n) {anchor : Option String} {m : Mark}
    (noted : c.anchorAt anchor m = .ok c') (more : c.graph.size < n) :
    c'.Within n ∧ c'.graph = c.graph := by
  unfold Composition.anchorAt at noted
  split at noted
  next => exact Except.ok.inj noted ▸ ⟨h, rfl⟩
  next =>
    split at noted
    next => simp at noted
    next =>
      obtain rfl := Except.ok.inj noted
      refine ⟨⟨h.graph, fun e member => ?_, h.stack⟩, rfl⟩
      rcases Entries.mem_set member with before | rfl
      · exact h.anchors e before
      · exact more

theorem Within.push (h : c.Within n) {node : Node} (bound : ∀ part ∈ node.content.parts, part < n) :
    ({ c with graph := c.graph.push node } : Composition).Within n := by
  refine ⟨fun id part member => ?_, h.anchors, h.stack⟩
  rw [Graph.content_push] at member
  split at member
  next => exact bound part member
  next => exact h.graph id part member

theorem Within.open (h : c.Within n) (o : OpenCollection) (empty : o.nodes = []) :
    ({ c with stack := o :: c.stack } : Composition).Within n := by
  refine ⟨h.graph, h.anchors, fun o' member id inside => ?_⟩
  rcases List.mem_cons.mp member with rfl | later
  · simp [empty] at inside
  · exact h.stack o' later id inside

theorem Within.begin {anchor : Option String} {node : Node} {isMapping : Bool}
    (h : c.Within c.graph.size) (empty : node.content.parts = [])
    (begun : c.begin anchor node isMapping = .ok c') : c'.Within c'.graph.size := by
  unfold Composition.begin at begun
  split at begun
  next => simp [throw, throwThe, MonadExceptOf.throw, bind, Except.bind] at begun
  next =>
    simp only [bind_eq_ok, pure_eq_ok] at begun
    obtain ⟨noted, anchored, rfl⟩ := begun
    obtain ⟨within, same⟩ := (h.mono (Nat.le_succ _)).anchorAt anchored (Nat.lt_succ_self _)
    have bound : ∀ part ∈ node.content.parts, part < c.graph.size + 1 := by simp [empty]
    have placed : (noted.place noted.graph.size).Within (c.graph.size + 1) :=
      within.place (same ▸ Nat.lt_succ_self _)
    have pushed := placed.push bound
    simpa [same] using pushed.open ⟨noted.graph.size, isMapping, []⟩ rfl

theorem Within.finish (h : c.Within n) : c.finish.Within n := by
  unfold Composition.finish
  split
  next => exact h
  next top rest stack =>
    refine ⟨fun id part member => ?_, h.anchors,
      fun o member => h.stack o (stack ▸ List.mem_cons_of_mem top member)⟩
    have inTop := h.stack top (stack ▸ List.mem_cons_self)
    rw [Graph.content_setContent] at member
    split at member
    next =>
      split at member
      next => exact inTop part (List.mem_reverse.mp (parts_pairUp _ part member))
      next => exact inTop part (List.mem_reverse.mp member)
    next => exact h.graph id part member

theorem size_finish (c : Composition) : c.finish.graph.size = c.graph.size := by
  unfold Composition.finish
  split <;> simp

/-- Reading an event names only nodes that are there. -/
theorem Within.step {e : Event} (h : c.Within c.graph.size) (read : c.step e = .ok c') :
    c'.Within c'.graph.size := by
  unfold Composition.step at read
  split at read
  next =>
    split at read
    next => simp at read
    next => exact Except.ok.inj read ▸ ⟨h.graph, h.anchors, h.stack⟩
  next => exact Except.ok.inj read ▸ h
  next => exact Except.ok.inj read ▸ h
  next name _ =>
    split at read
    next id found =>
      obtain rfl := Except.ok.inj read
      rw [graph_place]
      exact h.place (h.anchors _ (Entries.mem_of_get?_eq_some found))
    next => simp at read
  next anchor tag plain text _ =>
    simp only [bind_eq_ok, pure_eq_ok] at read
    obtain ⟨noted, anchored, rfl⟩ := read
    obtain ⟨within, same⟩ := (h.mono (Nat.le_succ _)).anchorAt anchored (Nat.lt_succ_self _)
    have bound : ∀ part ∈ (Content.scalar text).parts, part < c.graph.size + 1 := by
      simp [Content.parts]
    have placed : (noted.place noted.graph.size).Within (c.graph.size + 1) :=
      within.place (same ▸ Nat.lt_succ_self _)
    simpa [same] using placed.push bound
  next => exact h.begin rfl read
  next => exact h.begin rfl read
  next =>
    obtain rfl := Except.ok.inj read
    rw [size_finish]
    exact h.finish
  next =>
    obtain rfl := Except.ok.inj read
    rw [size_finish]
    exact h.finish

end Composition

/-- In the graph of a text every node that is named is there. -/
theorem Graph.closed_of_ofText {text : List Char} {g : Graph} (read : Graph.ofText text = .ok g) :
    g.Closed := by
  simp only [Graph.ofText, ofEvents, bind_eq_ok] at read
  obtain ⟨_, -, c, composed, kept⟩ := read
  have empty : ({} : Composition).Within ({} : Composition).graph.size :=
    ⟨fun _ _ member => by simp [Graph.content, Content.parts] at member, by simp, by simp⟩
  have closed : c.Within c.graph.size :=
    foldlM_invariant (P := fun c : Composition => c.Within c.graph.size) empty
      (fun _ _ _ h stepped => h.step stepped) composed
  split at kept
  next => simp at kept
  next => exact Except.ok.inj kept ▸ closed.graph

end JobMatrix.Yaml
