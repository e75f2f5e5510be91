import JobMatrix.Proofs.Yaml.Merging

set_option autoImplicit false

/-!
The data that a graph stands for. It is said here what is made of a document, with which entries,
and when nothing but a repeated key can be wrong with it; and how far a graph whose mappings have
been flattened one by one is still the graph that was written.
-/

namespace JobMatrix.Yaml

namespace Graph

variable (g : Graph)

/-- The nodes whose data is made, from the root on. What a mapping merges is not made for that, but
its keys and values are, as those of the mapping. -/
inductive Constructed : Nat → Prop
  | root : 0 < g.size → Constructed 0
  | item {id item : Nat} {items : List Nat} :
      Constructed id → g.content id = .sequence items → item ∈ items → Constructed item
  | key {id : Nat} {p : Nat × Nat} : Constructed id → p ∈ g.allPairs id → Constructed p.1
  | value {id : Nat} {p : Nat × Nat} : Constructed id → p ∈ g.allPairs id → Constructed p.2

/-- The value of a key. -/
def keyOf (id : Nat) : Option Value := (Construction.scalarValue g id).toOption

/-- Pairs with the values of their keys. -/
def keyed (pairs : List (Nat × Nat)) : List (Value × Nat) :=
  pairs.filterMap fun p => (g.keyOf p.1).map (·, p.2)

/-- The keys that a mapping writes itself are different. -/
def Distinct (id : Nat) : Prop :=
  ((g.keyed (g.plainPairs (g.pairs id))).map Prod.fst).Pairwise fun k l => k.same l = false

/-- The entries of a mapping: its own are put over those that it merges. -/
def entriesOf (id : Nat) : List (Value × Nat) :=
  putAll Value.same (putAll Value.same [] (g.keyed (g.inherited (g.pairs id))))
    (g.keyed (g.plainPairs (g.pairs id)))

/-- Nothing but a repeated key can be wrong with what is made: scalars can be read, collections have
the tags of their kinds, keys are scalars that can be shown, and what is merged does not merge. -/
structure Regular : Prop where
  scalars : ∀ id, g.Constructed id → ∀ text, g.content id = .scalar text →
    ∃ v, Construction.scalarValue g id = .ok v
  sequences : ∀ id, g.Constructed id → ∀ items, g.content id = .sequence items → g.tag id = .seq
  mappings : ∀ id, g.Constructed id → g.IsMapping id → g.tag id = .map
  keys : ∀ id, g.Constructed id → ∀ p ∈ g.allPairs id, (∃ text, g.content p.1 = .scalar text) ∧
    ∀ v ∈ g.keyOf p.1, v.literal?.isSome
  merges : ∀ id, g.Constructed id → ∀ v ∈ g.mergeValues (g.pairs id), g.Flat v

/-- The graph with the mappings that are done flattened. -/
structure Follows (h : Graph) (done : List Nat) : Prop where
  size : h.size = g.size
  tag : h.tag = g.tag
  start : h.start = g.start
  content : ∀ id, h.content id = g.content id ∨
    id ∈ done ∧ g.merges id ∧ h.content id = .mapping (g.allPairs id)

end Graph

namespace Construction

variable {g : Graph} {id : Nat}

theorem scalarValue_scalar {text : Text} (h : g.content id = .scalar text) :
    scalarValue g id = match Scalar.reader? id (g.start id) (g.tag id) with
      | none => problem ("could not determine a constructor for the tag " ++
          Text.quoted (g.tag id).text) (g.start id)
      | some read => read text := by
  have spelled : scalarText g (g.size + 1) id = .ok text := by rw [scalarText, h]
  simp only [scalarValue, spelled, ok_bind, h]
  cases Scalar.reader? id (g.start id) (g.tag id) with
  | none => rfl
  | some read =>
    dsimp only
    split
    next mapping => simp at mapping
    next => rfl

theorem tag_of_scalarValue {text : Text} {v : Value} (h : g.content id = .scalar text)
    (read : scalarValue g id = .ok v) : g.tag id ≠ .value := by
  intro tag
  rw [scalarValue_scalar h, tag] at read
  simp [Scalar.reader?, problem] at read

theorem emptyCell?_of_scalarValue {text : Text} {v : Value} (h : g.content id = .scalar text)
    (read : scalarValue g id = .ok v) : emptyCell? (g.tag id) = none := by
  rw [scalarValue_scalar h] at read
  cases tag : g.tag id <;> simp_all [Scalar.reader?, emptyCell?, problem]

end Construction

namespace Graph

variable {g : Graph} {done : List Nat} {id : Nat}

theorem Follows.scalar {h : Graph} (follows : g.Follows h done)
    {text : Text} (isScalar : g.content id = .scalar text) :
    h.content id = .scalar text ∧
      Construction.scalarValue h id = Construction.scalarValue g id := by
  have same : h.content id = .scalar text := by
    rcases follows.content id with same | ⟨-, merges, -⟩
    · rw [same, isScalar]
    · simp [Graph.merges, Graph.pairs, isScalar, Graph.mergeValues] at merges
  refine ⟨same, ?_⟩
  rw [Construction.scalarValue_scalar same, Construction.scalarValue_scalar isScalar, follows.tag,
    follows.start]

theorem Follows.same {h : Graph} (follows : g.Follows h done) (none : ¬ g.merges id) :
    h.content id = g.content id :=
  (follows.content id).resolve_right fun flattened => none flattened.2.1

theorem Flat.not_merges (flat : g.Flat id) : ¬ g.merges id := by
  rcases flat.collection with mapping | ⟨items, isSequence⟩
  · have itself : id ∈ g.merged id := by
      rw [Graph.merged, mapping.content]
      exact List.mem_singleton_self id
    exact (flat.parts id itself).2
  · simp [Graph.merges, Graph.pairs, isSequence, Graph.mergeValues]

theorem Follows.mergeValues {h : Graph} (follows : g.Follows h done) :
    h.mergeValues = g.mergeValues := by
  funext pairs
  simp only [Graph.mergeValues, follows.tag]

theorem Follows.plainPairs {h : Graph} (follows : g.Follows h done) :
    h.plainPairs = g.plainPairs := by
  funext pairs
  simp only [Graph.plainPairs, follows.tag]

/-- What can be merged has not been changed. -/
theorem Follows.flat {h : Graph} (follows : g.Follows h done) (flat : g.Flat id) :
    h.Flat id ∧ h.merged id = g.merged id ∧ ∀ part ∈ g.merged id, h.pairs part = g.pairs part := by
  have same := follows.same flat.not_merges
  have merged : h.merged id = g.merged id := by rw [Graph.merged, Graph.merged, same]
  have pairs (part : Nat) (member : part ∈ g.merged id) : h.content part = g.content part ∧
      h.pairs part = g.pairs part := by
    have unchanged := follows.same (flat.parts part member).2
    exact ⟨unchanged, by rw [Graph.pairs, unchanged, ← Graph.pairs]⟩
  refine ⟨⟨by simpa only [IsMapping, same] using flat.collection, fun part member => ?_⟩, merged,
    fun part member => (pairs part member).2⟩
  rw [merged] at member
  rw [IsMapping, Graph.merges, (pairs part member).1, (pairs part member).2, follows.mergeValues]
  exact flat.parts part member

theorem allPairs_of_not_merges (none : ¬ g.merges id) : g.allPairs id = g.pairs id := by
  have values : g.mergeValues (g.pairs id) = [] := not_not.mp none
  rw [allPairs, inherited, values, plainPairs_eq_self values]
  rfl

theorem isMapping_of_mem {p : Nat × Nat} (member : p ∈ g.allPairs id) : g.IsMapping id := by
  cases content : g.content id with
  | mapping pairs => exact ⟨pairs, content⟩
  | scalar | sequence =>
    have none : g.pairs id = [] := by rw [Graph.pairs, content]
    simp [Graph.allPairs, none, Graph.inherited, Graph.mergeValues, Graph.plainPairs] at member

theorem Follows.allPairs {h : Graph} (follows : g.Follows h done)
    (flat : ∀ v ∈ g.mergeValues (g.pairs id), g.Flat v) (same : h.content id = g.content id) :
    h.allPairs id = g.allPairs id := by
  have pairs : h.pairs id = g.pairs id := by rw [Graph.pairs, same, ← Graph.pairs]
  rw [Graph.allPairs, Graph.allPairs, pairs, follows.plainPairs, inherited, inherited,
    follows.mergeValues]
  congr 1
  refine List.flatMap_congr fun v member => ?_
  obtain ⟨-, merged, parts⟩ := follows.flat (flat v member)
  rw [merged]
  exact List.flatMap_congr parts

theorem Follows.setContent {h : Graph} (follows : g.Follows h done) (inDone : id ∈ done)
    (mapping : g.IsMapping id) :
    g.Follows (h.setContent id (.mapping (g.allPairs id))) done := by
  refine ⟨by simp [follows.size], by simp [follows.tag], by simp [follows.start], fun other => ?_⟩
  rw [content_setContent]
  split
  next here =>
    obtain ⟨rfl, -⟩ := here
    by_cases merges : g.merges id
    · exact .inr ⟨inDone, merges, rfl⟩
    · exact .inl (by rw [allPairs_of_not_merges merges, mapping.content])
  next => exact follows.content other

theorem Constructed.lt (closed : g.Closed) (h : g.Constructed id) : id < g.size := by
  have inPairs {m : Nat} {p : Nat × Nat} (member : p ∈ g.pairs m) :
      p.1 < g.size ∧ p.2 < g.size := by
    cases content : g.content m with
    | scalar => simp [Graph.pairs, content] at member
    | sequence => simp [Graph.pairs, content] at member
    | mapping ps =>
      rw [pairs_of_content content] at member
      have part (k : Nat) (here : k ∈ [p.1, p.2]) : k < g.size :=
        closed m k (by rw [content]; exact List.mem_flatMap.mpr ⟨p, member, here⟩)
      exact ⟨part p.1 (by simp), part p.2 (by simp)⟩
  have inAll {m : Nat} {p : Nat × Nat} (member : p ∈ g.allPairs m) :
      p.1 < g.size ∧ p.2 < g.size := by
    rcases List.mem_append.mp member with inherited | own
    · obtain ⟨v, -, member⟩ := List.mem_flatMap.mp inherited
      obtain ⟨part, -, member⟩ := List.mem_flatMap.mp member
      exact inPairs member
    · exact inPairs (List.mem_filter.mp own).1
  cases h with
  | root inside => exact inside
  | item _ content member => exact closed _ id (by rw [content]; exact member)
  | key _ member => exact (inAll member).1
  | value _ member => exact (inAll member).2

end Graph

end JobMatrix.Yaml
