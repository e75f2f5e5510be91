import JobMatrix.Proofs.Yaml.Graph
import JobMatrix.Yaml.Document
import Mathlib.Algebra.Order.BigOperators.Group.List
import Mathlib.Algebra.Order.Ring.Nat

set_option autoImplicit false

/-!
Merging, where no mapping that is merged merges others itself. Flattening a mapping then changes
this mapping alone: what it merges takes its place in front of its own pairs.
-/

namespace JobMatrix.Yaml

namespace Graph

variable (g : Graph)

/-- The pairs that do not merge. -/
def plainPairs (pairs : List (Nat × Nat)) : List (Nat × Nat) :=
  pairs.filter fun p => g.tag p.1 != .merge

/-- The values of the pairs that merge. -/
def mergeValues (pairs : List (Nat × Nat)) : List Nat :=
  (pairs.filter fun p => g.tag p.1 == .merge).map Prod.snd

/-- The mappings that a value stands for when it is merged. The last of a sequence comes first. -/
def merged (id : Nat) : List Nat :=
  match g.content id with
  | .scalar _ => []
  | .sequence items => items.reverse
  | .mapping _ => [id]

/-- The pairs that are merged by pairs. -/
def inherited (pairs : List (Nat × Nat)) : List (Nat × Nat) :=
  (g.mergeValues pairs).flatMap fun v => (g.merged v).flatMap g.pairs

/-- The pairs of a mapping with those that it merges, which stand in front. -/
def allPairs (id : Nat) : List (Nat × Nat) := g.inherited (g.pairs id) ++ g.plainPairs (g.pairs id)

def merges (id : Nat) : Prop := g.mergeValues (g.pairs id) ≠ []

def IsMapping (id : Nat) : Prop := ∃ pairs, g.content id = .mapping pairs

/-- A value that can be merged in one step: a mapping that does not merge, or a sequence of such. -/
structure Flat (id : Nat) : Prop where
  collection : g.IsMapping id ∨ ∃ items, g.content id = .sequence items
  parts : ∀ part ∈ g.merged id, g.IsMapping part ∧ ¬ g.merges part

variable {g} {pairs before after : List (Nat × Nat)} {id v : Nat}

theorem pairs_of_content (h : g.content id = .mapping pairs) : g.pairs id = pairs := by
  rw [Graph.pairs, h]

theorem IsMapping.content (h : g.IsMapping id) : g.content id = .mapping (g.pairs id) := by
  obtain ⟨pairs, h⟩ := h
  rw [pairs_of_content h, h]

theorem mergeValues_cons (p : Nat × Nat) (pairs : List (Nat × Nat)) :
    g.mergeValues (p :: pairs) =
      if g.tag p.1 == .merge then p.2 :: g.mergeValues pairs else g.mergeValues pairs := by
  unfold mergeValues
  rw [List.filter_cons]
  split <;> rfl

theorem plainPairs_cons (p : Nat × Nat) (pairs : List (Nat × Nat)) :
    g.plainPairs (p :: pairs) =
      if g.tag p.1 == .merge then g.plainPairs pairs else p :: g.plainPairs pairs := by
  unfold plainPairs
  rw [List.filter_cons, bne]
  split <;> simp_all

theorem plainPairs_eq_self (none : g.mergeValues pairs = []) : g.plainPairs pairs = pairs := by
  induction pairs with
  | nil => rfl
  | cons p pairs ih =>
    rw [mergeValues_cons] at none
    rw [plainPairs_cons]
    split at none
    next => simp at none
    next other => rw [if_neg other, ih none]

theorem splitMerge_eq_none : Construction.splitMerge g pairs = none ↔ g.mergeValues pairs = [] := by
  induction pairs with
  | nil => simp [Construction.splitMerge, mergeValues]
  | cons p pairs ih =>
    rw [mergeValues_cons]
    unfold Construction.splitMerge
    split
    next => simp
    next => simpa using ih

theorem splitMerge_eq_some (h : Construction.splitMerge g pairs = some (before, v, after)) :
    g.mergeValues pairs = v :: g.mergeValues (before ++ after) ∧
      g.plainPairs pairs = g.plainPairs (before ++ after) := by
  induction pairs generalizing before with
  | nil => simp [Construction.splitMerge] at h
  | cons p pairs ih =>
    rw [mergeValues_cons, plainPairs_cons]
    unfold Construction.splitMerge at h
    split at h
    next here =>
      obtain ⟨rfl, rfl, rfl⟩ : [] = before ∧ p.2 = v ∧ pairs = after := by simpa using h
      rw [if_pos here, if_pos here]
      exact ⟨rfl, rfl⟩
    next other =>
      simp only [Option.map_eq_some_iff, Prod.mk.injEq] at h
      obtain ⟨⟨before', v', after'⟩, found, rfl, rfl, rfl⟩ := h
      obtain ⟨values, plain⟩ := ih found
      rw [if_neg other, if_neg other, List.cons_append, mergeValues_cons, plainPairs_cons,
        if_neg other, if_neg other, plain]
      exact ⟨values, rfl⟩

theorem plainKeys_eq_self (spelled : ∀ p ∈ pairs, g.tag p.1 ≠ .value) :
    Construction.plainKeys g pairs = g := by
  induction pairs with
  | nil => rfl
  | cons p pairs ih =>
    unfold Construction.plainKeys
    rw [List.foldl_cons, if_neg (by simpa using spelled p List.mem_cons_self)]
    exact ih fun q member => spelled q (List.mem_cons_of_mem p member)

open Construction (flatten)

theorem flatten_eq_self (mapping : g.IsMapping id) (none : ¬ g.merges id)
    (spelled : ∀ p ∈ g.pairs id, g.tag p.1 ≠ .value) (n : Nat) : flatten n [] id g = .ok g := by
  cases n with
  | zero => rfl
  | succ n =>
    unfold flatten
    rw [splitMerge_eq_none.mpr (not_not.mp none)]
    simp only [plainKeys_eq_self spelled, List.nil_append, ← mapping.content, setContent_self]

theorem splitMerge_setContent (g : Graph) (id : Nat) (content : Content)
    (pairs : List (Nat × Nat)) :
    Construction.splitMerge (g.setContent id content) pairs = Construction.splitMerge g pairs := by
  induction pairs with
  | nil => rfl
  | cons p pairs ih => simp only [Construction.splitMerge, tag_setContent, ih]

theorem content_setContent_of_ne (content : Content) {other : Nat} (apart : id ≠ other) :
    (g.setContent id content).content other = g.content other := by
  rw [content_setContent, if_neg fun h => apart h.1]

/-- A mapping that is merged, seen while another one is being flattened. -/
theorem flatten_part (content : Content) {part : Nat} (apart : id ≠ part)
    (mapping : g.IsMapping part) (none : ¬ g.merges part)
    (spelled : ∀ p ∈ g.pairs part, g.tag p.1 ≠ .value) (n : Nat) :
    flatten n [] part (g.setContent id content) = .ok (g.setContent id content) ∧
      (g.setContent id content).pairs part = g.pairs part := by
  have same := g.content_setContent_of_ne content apart
  have pairs : (g.setContent id content).pairs part = g.pairs part := by
    rw [Graph.pairs, same, ← Graph.pairs]
  refine ⟨flatten_eq_self ?_ ?_ ?_ n, pairs⟩
  · rw [IsMapping, same]
    exact mapping
  · rw [merges, pairs, mergeValues, tag_setContent]
    exact none
  · rwa [pairs, tag_setContent]

/-- What a mapping may merge when it is flattened, and the keys that come with it. -/
structure Mergeable (g : Graph) (id v : Nat) : Prop extends g.Flat v where
  apart : ∀ part ∈ g.merged v, id ≠ part
  spelled : ∀ part ∈ g.merged v, ∀ p ∈ g.pairs part, g.tag p.1 ≠ .value

theorem Mergeable.ne (h : g.Mergeable id v) (mapping : g.IsMapping id) : id ≠ v := by
  rintro rfl
  rcases h.collection with _ | ⟨items, isSequence⟩
  · exact h.apart id (by rw [Graph.merged, mapping.content]; exact List.mem_singleton_self id) rfl
  · simp [mapping.content] at isSequence

theorem pairs_setContent_self (inside : id < g.size) (pairs : List (Nat × Nat)) :
    (g.setContent id (.mapping pairs)).pairs id = pairs :=
  pairs_of_content (by rw [content_setContent, if_pos ⟨rfl, inside⟩])

/-- One round takes the first pair that merges away, and gathers the pairs that it stands for. -/
theorem flatten_round (n : Nat) (merged : List (Nat × Nat)) (mapping : g.IsMapping id)
    (inside : id < g.size) (split : Construction.splitMerge g pairs = some (before, v, after))
    (mergeable : g.Mergeable id v) :
    flatten (n + 1) merged id (g.setContent id (.mapping pairs)) =
      flatten n (merged ++ (g.merged v).flatMap g.pairs) id
        (g.setContent id (.mapping (before ++ after))) := by
  have part (w : Nat) (member : w ∈ g.merged v) :=
    flatten_part (.mapping (before ++ after)) (mergeable.apart w member)
      (mergeable.parts w member).1 (mergeable.parts w member).2 (mergeable.spelled w member) n
  rw [flatten]
  simp only [pairs_setContent_self inside, splitMerge_setContent, split, setContent_setContent,
    content_setContent_of_ne _ (mergeable.ne mapping)]
  rcases mergeable.collection with isMapping | ⟨items, isSequence⟩
  · have itself : g.merged v = [v] := by rw [Graph.merged, isMapping.content]
    obtain ⟨kept, pairsKept⟩ := part v (by simp [itself])
    rw [isMapping.content, itself]
    simp [kept, pairsKept]
  · -- The groups are gathered from the front, so those of the last item come first.
    have parts : g.merged v = items.reverse := by rw [Graph.merged, isSequence]
    rw [isSequence, parts]
    dsimp only
    rw [foldlM_collect g.pairs]
    · simp [List.flatMap_def]
    · intro w member groups
      have member : w ∈ g.merged v := by simpa [parts] using member
      obtain ⟨kept, pairsKept⟩ := part w member
      simp only [content_setContent_of_ne _ (mergeable.apart w member),
        (mergeable.parts w member).1.content, kept, ok_bind, pairsKept]
      rfl

theorem flatten_setContent {n : Nat} (merged : List (Nat × Nat)) (mapping : g.IsMapping id)
    (inside : id < g.size) (enough : (g.mergeValues pairs).length < n)
    (values : ∀ v ∈ g.mergeValues pairs, g.Mergeable id v)
    (spelled : ∀ p ∈ g.plainPairs pairs, g.tag p.1 ≠ .value) :
    flatten n merged id (g.setContent id (.mapping pairs)) =
      .ok (g.setContent id (.mapping (merged ++ g.inherited pairs ++ g.plainPairs pairs))) := by
  induction n generalizing pairs merged with
  | zero => simp at enough
  | succ n ih =>
    cases split : Construction.splitMerge g pairs with
    | none =>
      have none := splitMerge_eq_none.mp split
      rw [plainPairs_eq_self none] at spelled ⊢
      have same : Construction.plainKeys (g.setContent id (.mapping pairs)) pairs =
          g.setContent id (.mapping pairs) := plainKeys_eq_self (by rwa [tag_setContent])
      rw [flatten]
      simp only [pairs_setContent_self inside, splitMerge_setContent, split, same,
        setContent_setContent, inherited, none, List.flatMap_nil, List.append_nil]
    | some parts =>
      obtain ⟨before, v, after⟩ := parts
      obtain ⟨first, plain⟩ := splitMerge_eq_some split
      have enough : (g.mergeValues (before ++ after)).length < n := by
        rw [first, List.length_cons] at enough
        omega
      have later : ∀ w ∈ g.mergeValues (before ++ after), g.Mergeable id w := fun w member =>
        values w (first ▸ List.mem_cons_of_mem v member)
      have inherited : g.inherited pairs =
          (g.merged v).flatMap g.pairs ++ g.inherited (before ++ after) := by
        rw [Graph.inherited, first, List.flatMap_cons]
        rfl
      rw [flatten_round n merged mapping inside split (values v (first ▸ List.mem_cons_self)),
        ih _ enough later (plain ▸ spelled), inherited, plain]
      simp only [List.append_assoc]

/-- The number of pairs of a content that merge. -/
def mergeLength (g : Graph) : Content → Nat
  | .mapping pairs => (g.mergeValues pairs).length
  | _ => 0

theorem mergeCount_eq_sum (g : Graph) :
    Construction.mergeCount g = (g.toList.map fun node => g.mergeLength node.content).sum := by
  rw [List.sum_eq_foldl, List.foldl_map]
  unfold Construction.mergeCount
  congr 1
  funext count node
  cases node.content with
  | mapping pairs =>
    rw [mergeLength, mergeValues, List.length_map, ← List.countP_eq_length_filter]
  | scalar => rfl
  | sequence => rfl

theorem mergeValues_le_mergeCount (g : Graph) (id : Nat) :
    (g.mergeValues (g.pairs id)).length ≤ Construction.mergeCount g := by
  have own : (g.mergeValues (g.pairs id)).length = g.mergeLength (g.content id) := by
    unfold Graph.pairs
    cases g.content id <;> rfl
  rw [own, mergeCount_eq_sum]
  unfold Graph.content
  cases found : g[id]? with
  | none => exact Nat.zero_le _
  | some node =>
    have inside : node ∈ g.toList := Array.mem_toList_iff.mpr (Array.mem_of_getElem? found)
    exact List.le_sum_of_mem (List.mem_map_of_mem inside)

/-- Flattening a mapping puts what it merges in front of its own pairs. -/
theorem flatten_eq_ok (mapping : g.IsMapping id) (inside : id < g.size)
    (values : ∀ v ∈ g.mergeValues (g.pairs id), g.Flat v)
    (spelled : ∀ p ∈ g.allPairs id, g.tag p.1 ≠ .value) :
    flatten (Construction.mergeCount g + 1) [] id g =
      .ok (g.setContent id (.mapping (g.allPairs id))) := by
  have mergeable : ∀ v ∈ g.mergeValues (g.pairs id), g.Mergeable id v := by
    intro v member
    refine ⟨values v member, fun part inside => ?_, fun part inside p pair => ?_⟩
    · -- The mapping itself merges, and what it merges does not.
      rintro rfl
      exact ((values v member).parts id inside).2 (List.ne_nil_of_mem member)
    · refine spelled p (List.mem_append_left _ ?_)
      exact List.mem_flatMap.mpr ⟨v, member, List.mem_flatMap.mpr ⟨part, inside, pair⟩⟩
  have flat := flatten_setContent [] mapping inside
    (Nat.lt_succ_of_le (mergeValues_le_mergeCount g id)) mergeable
    (fun p member => spelled p (List.mem_append_right _ member))
  rwa [← mapping.content, setContent_self, List.nil_append] at flat

end Graph

end JobMatrix.Yaml
