import JobMatrix.Proofs.Yaml.Filling

set_option autoImplicit false

/-!
Repeated keys. Where no mapping that is merged merges others itself, the data of a document is made
unless a mapping that is made writes two keys of its own that are equal. What a mapping merges never
counts against its own keys: these are put over it.
-/

namespace JobMatrix.Yaml

/-! ### Documents -/

/-- The document has the data of the graph. -/
structure Document.Holds (g : Graph) (d : Document) : Prop where
  scalar : ∀ id, g.Constructed id → ∀ text, g.content id = .scalar text →
    ∃ v, Construction.scalarValue g id = .ok v ∧ d.cell id = .scalar v
  list : ∀ id, g.Constructed id → ∀ items, g.content id = .sequence items → d.cell id = .list items
  map : ∀ id, g.Constructed id → g.IsMapping id → d.cell id = .map (g.entriesOf id)

namespace Document

open Construction (Invariant Filled)

variable {g : Graph}

theorem invariant_start (g : Graph) :
    Invariant g [] { graph := g, cells := Array.replicate g.size none } := by
  have nothing := Construction.made?_start g
  exact ⟨⟨rfl, rfl, rfl, fun _ => .inl rfl⟩, by simp, fun id met => by simp [nothing] at met,
    fun id _ _ cell found => by simp [nothing] at found, fun id met => by simp [nothing] at met,
    by simp, List.nodup_nil, List.nodup_nil, by simp⟩

theorem holds_of_invariant {done : List Nat} {c : Construction} (inv : Invariant g done c)
    (none : c.pending = []) (filled : ∀ other ∈ done, Filled g c other)
    (met : ∀ id, g.Constructed id → (c.made? id).isSome) :
    Holds g ⟨c.cells, 0⟩ ∧ ∀ id, g.Constructed id → g.IsMapping id → g.Distinct id := by
  have cell {id : Nat} {cell : Cell} (here : c.made? id = some cell) :
      (⟨c.cells, 0⟩ : Document).cell id = cell := congrArg (fun o => o.getD (.scalar .null)) here
  have collection {id : Nat} (constructed : g.Constructed id)
      (noScalar : ∀ text, g.content id ≠ .scalar text) : Filled g c id := by
    rcases inv.collection id (met id constructed) with ⟨text, isScalar⟩ | waits | inDone
    · exact absurd isScalar (noScalar text)
    · simp [none] at waits
    · exact filled id inDone
  refine ⟨⟨fun id constructed text isScalar => ?_, fun id constructed items isSequence => ?_,
    fun id constructed mapping => ?_⟩, fun id constructed mapping => ?_⟩
  · obtain ⟨found, here⟩ := Option.isSome_iff_exists.mp (met id constructed)
    obtain ⟨v, read, rfl⟩ := inv.scalar id text isScalar found here
    exact ⟨v, read, cell here⟩
  · exact cell ((collection constructed (by simp [isSequence])).list items isSequence).1
  · exact cell ((collection constructed (by simp [mapping.content])).map mapping).1
  · exact ((collection constructed (by simp [mapping.content])).map mapping).2.1

theorem ofGraph_outcome (closed : g.Closed) (regular : g.Regular) :
    (∃ d, ofGraph g = .ok d ∧ d.Holds g ∧ ∀ id, g.Constructed id → g.IsMapping id → g.Distinct id) ∨
    ∃ f id, ofGraph g = .error f ∧ f.IsDuplicate ∧ g.Constructed id ∧ g.IsMapping id ∧
      ¬ g.Distinct id := by
  unfold ofGraph
  by_cases empty : g.isEmpty
  · have nothing (id : Nat) : ¬ g.Constructed id := fun constructed => by
      have inside := constructed.lt closed
      simp [Array.isEmpty_iff.mp empty] at inside
    rw [if_pos empty]
    exact .inl ⟨_, rfl, ⟨fun id constructed => absurd constructed (nothing id),
      fun id constructed => absurd constructed (nothing id),
      fun id constructed => absurd constructed (nothing id)⟩,
      fun id constructed => absurd constructed (nothing id)⟩
  · have inside : 0 < g.size := by
      simpa [Array.isEmpty_iff, Nat.pos_iff_ne_zero] using empty
    obtain ⟨c, visited, inv, -, root⟩ := (invariant_start g).visit regular (.root inside) inside
    rw [if_neg empty, visited, ok_bind]
    rcases inv.fillAll (n := g.size + 1) regular closed (by simp) (by simp) with
      ⟨c', done, made, inv', none, filled, met⟩ | ⟨f, id, failed, dup, repeats⟩
    · have all (id : Nat) (constructed : g.Constructed id) :=
        inv'.met_of_constructed none filled (met 0 root) constructed
      obtain ⟨holds, distinct⟩ := holds_of_invariant inv' none filled all
      exact .inl ⟨_, by rw [made]; rfl, holds, distinct⟩
    · exact .inr ⟨f, id, by rw [failed]; rfl, dup, repeats⟩

/-- Where nothing that is merged merges itself, the document is refused for a repeated key exactly
when some mapping that is made repeats a key of its own. Otherwise there is the data, each mapping
with its own keys over those that it merges. -/
theorem duplicate_iff_repeats {text : List Char} (read : Graph.ofText text = .ok g)
    (regular : g.Regular) :
    ((∃ f, ofText text = .error f ∧ f.IsDuplicate) ↔
      ∃ id, g.Constructed id ∧ g.IsMapping id ∧ ¬ g.Distinct id) ∧
    ((∀ id, g.Constructed id → g.IsMapping id → g.Distinct id) →
      ∃ d, ofText text = .ok d ∧ d.Holds g) := by
  have document : ofText text = ofGraph g := by rw [ofText, read, ok_bind]
  rw [document]
  rcases ofGraph_outcome (Graph.closed_of_ofText read) regular with
    ⟨d, made, holds, distinct⟩ | ⟨f, id, failed, dup, constructed, mapping, repeats⟩
  · refine ⟨⟨?_, ?_⟩, fun _ => ⟨d, made, holds⟩⟩
    · rintro ⟨f, failed, -⟩
      simp [made] at failed
    · rintro ⟨id, constructed, mapping, repeats⟩
      exact absurd (distinct id constructed mapping) repeats
  · refine ⟨⟨?_, ?_⟩, fun distinct => absurd (distinct id constructed mapping) repeats⟩
    · intro _
      exact ⟨id, constructed, mapping, repeats⟩
    · intro _
      exact ⟨f, failed, dup⟩

end Document

/-! ### Graphs that can be checked -/

namespace Graph

variable (g : Graph)

/-- The nodes that a node has made. -/
def children (id : Nat) : List Nat :=
  match g.content id with
  | .sequence items => items
  | _ => (g.allPairs id).flatMap fun p => [p.1, p.2]

instance (id : Nat) : Decidable (g.IsMapping id) :=
  match h : g.content id with
  | .mapping pairs => .isTrue ⟨pairs, h⟩
  | .scalar _ => .isFalse fun ⟨_, isMapping⟩ => by simp [h] at isMapping
  | .sequence _ => .isFalse fun ⟨_, isMapping⟩ => by simp [h] at isMapping

instance (id : Nat) : Decidable (g.merges id) := inferInstanceAs (Decidable (_ ≠ _))

instance (id : Nat) : Decidable (g.Distinct id) := inferInstanceAs (Decidable (List.Pairwise _ _))

def isSequence (id : Nat) : Bool :=
  match g.content id with
  | .sequence _ => true
  | _ => false

def isScalar (id : Nat) : Bool :=
  match g.content id with
  | .scalar _ => true
  | _ => false

/-- A node that a regular graph can have among those that are made. -/
structure Passes (id : Nat) : Prop where
  scalar : g.isScalar id = true → (g.keyOf id).isSome
  sequence : g.isSequence id = true → g.tag id = .seq
  mapping : g.IsMapping id → g.tag id = .map
  keys : ∀ p ∈ g.allPairs id, g.isScalar p.1 = true ∧ ∀ v ∈ g.keyOf p.1, v.literal?.isSome
  merges : ∀ v ∈ g.mergeValues (g.pairs id), (g.IsMapping v ∨ g.isSequence v = true) ∧
    ∀ part ∈ g.merged v, g.IsMapping part ∧ ¬ g.merges part

instance (id : Nat) : Decidable (g.Passes id) :=
  decidable_of_iff (_ ∧ _ ∧ _ ∧ _ ∧ _) ⟨fun ⟨a, b, c, d, e⟩ => ⟨a, b, c, d, e⟩,
    fun ⟨a, b, c, d, e⟩ => ⟨a, b, c, d, e⟩⟩

variable {g} {id : Nat}

theorem Constructed.mem {nodes : List Nat} (root : 0 ∈ nodes)
    (closed : ∀ id ∈ nodes, ∀ child ∈ g.children id, child ∈ nodes) (h : g.Constructed id) :
    id ∈ nodes := by
  have pair {m : Nat} {p : Nat × Nat} (member : p ∈ g.allPairs m) :
      p.1 ∈ g.children m ∧ p.2 ∈ g.children m := by
    have all : g.children m = (g.allPairs m).flatMap fun p => [p.1, p.2] := by
      rw [children, (isMapping_of_mem member).content]
    exact ⟨all ▸ List.mem_flatMap.mpr ⟨p, member, by simp⟩,
      all ▸ List.mem_flatMap.mpr ⟨p, member, by simp⟩⟩
  induction h with
  | root => exact root
  | item _ isSequence member ih => exact closed _ ih _ (by rwa [children, isSequence])
  | key _ member ih => exact closed _ ih _ (pair member).1
  | value _ member ih => exact closed _ ih _ (pair member).2

/-- A graph is regular when a set of nodes with the root and with what they have made is. -/
theorem regular_of_passes {nodes : List Nat} (root : 0 ∈ nodes)
    (closed : ∀ id ∈ nodes, ∀ child ∈ g.children id, child ∈ nodes)
    (passes : ∀ id ∈ nodes, g.Passes id) : g.Regular := by
  have node (id : Nat) (h : g.Constructed id) : g.Passes id := passes id (h.mem root closed)
  refine ⟨fun id h text isScalar => ?_, fun id h items isSequence => ?_,
    fun id h => (node id h).mapping, fun id h p member => ?_, fun id h v member => ?_⟩
  · have some := (node id h).scalar (by rw [Graph.isScalar, isScalar])
    unfold keyOf at some
    cases read : Construction.scalarValue g id with
    | ok v => exact ⟨v, rfl⟩
    | error => simp [read, Except.toOption] at some
  · exact (node id h).sequence (by rw [Graph.isSequence, isSequence])
  · obtain ⟨isScalar, shown⟩ := (node id h).keys p member
    unfold Graph.isScalar at isScalar
    split at isScalar
    next text content => exact ⟨⟨text, content⟩, shown⟩
    next => simp at isScalar
  · obtain ⟨collection, parts⟩ := (node id h).merges v member
    refine ⟨collection.imp_right fun isSequence => ?_, parts⟩
    unfold Graph.isSequence at isSequence
    split at isSequence
    next items content => exact ⟨items, content⟩
    next => simp at isSequence

end Graph

namespace Document

/-- A mapping that overrides what it merges. -/
def overriding : List Char := "a: &a \x7bK: 1, L: 2\x7d\nb: \x7b<<: *a, K: 3\x7d\n".toList

/-- The nodes of the text but for the key that merges. -/
def overridingNodes : List Nat := [0, 1, 2, 3, 4, 5, 6, 7, 8, 10, 11]

theorem overriding_passes : (Graph.ofText overriding).toOption.any (fun g =>
    decide (∀ id ∈ overridingNodes, ∀ child ∈ g.children id, child ∈ overridingNodes) &&
      decide (∀ id ∈ overridingNodes, g.Passes id ∧ g.Distinct id) &&
      decide ((g.entriesOf 8).map Prod.snd = [11, 6])) = true := by
  decide +kernel

theorem overriding_holds :
    ∃ g d, Graph.ofText overriding = .ok g ∧ g.Regular ∧ ofText overriding = .ok d ∧ d.Holds g ∧
      (g.entriesOf 8).map Prod.snd = [11, 6] := by
  obtain ⟨g, read, checked⟩ := exists_of_any overriding_passes
  simp only [Bool.and_eq_true, decide_eq_true_eq] at checked
  obtain ⟨⟨closed, passes⟩, entries⟩ := checked
  have root : 0 ∈ overridingNodes := List.mem_cons_self
  have regular := Graph.regular_of_passes root closed fun id member => (passes id member).1
  obtain ⟨d, made, holds⟩ := (duplicate_iff_repeats read regular).2 fun id constructed _ =>
    (passes id (constructed.mem root closed)).2
  exact ⟨g, d, read, regular, made, holds, entries⟩

/-- A mapping inside another one that is flattened, for what merges it, before it is made. -/
def flattenedEarly : List Char :=
  "a: &a \x7bK: 1\x7d\nb: \x7bc: &c \x7b<<: *a, K: 2\x7d\x7d\nd: \x7b<<: *c\x7d\n".toList

/-- A mapping that is written only to be merged, and so is not made. -/
def mergedOnly : List Char := "a: \x7b<<: \x7bK: 1, K: 2\x7d\x7d\n".toList

theorem flattenedEarly_passes :
    ((Graph.ofText flattenedEarly).toOption.any fun g => decide (∀ id < g.size, g.Distinct id)) ∧
      (match ofText flattenedEarly with
        | .error f => f.problem?
        | .ok _ => none) = some ("found duplicate key " ++ "'K'") := by
  decide +kernel

theorem mergedOnly_passes :
    ((Graph.ofText mergedOnly).toOption.any fun g => decide (∃ id < g.size, ¬ g.Distinct id)) ∧
      (ofText mergedOnly).isOk = true := by
  decide +kernel

/-- Without a condition on what is merged, keys count as repeated that no mapping writes twice, and
others are overlooked. -/
theorem duplicates_of_merged :
    (∃ g f, Graph.ofText flattenedEarly = .ok g ∧ (∀ id < g.size, g.Distinct id) ∧
      ofText flattenedEarly = .error f ∧ f.IsDuplicate) ∧
    ∃ g d, Graph.ofText mergedOnly = .ok g ∧ (∃ id < g.size, ¬ g.Distinct id) ∧
      ofText mergedOnly = .ok d := by
  constructor
  · obtain ⟨checked, refused⟩ := flattenedEarly_passes
    obtain ⟨g, read, distinct⟩ := exists_of_any checked
    split at refused
    next f failed => exact ⟨g, f, read, of_decide_eq_true distinct, failed, _, refused⟩
    next => simp at refused
  · obtain ⟨checked, loads⟩ := mergedOnly_passes
    obtain ⟨g, read, repeats⟩ := exists_of_any checked
    obtain ⟨d, made⟩ := exists_of_isOk loads
    exact ⟨g, d, read, of_decide_eq_true repeats, made⟩

end Document

end JobMatrix.Yaml
