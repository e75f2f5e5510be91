import JobMatrix.Proofs.Yaml.Merging

set_option autoImplicit false

/-!
What is left of a graph while its mappings are flattened, with no condition on what they merge. Its
nodes stay of their kinds, scalars and sequences as they are, and a mapping holds nothing but pairs
of its own and pairs that come to it by merging.
-/

namespace JobMatrix.Yaml

namespace Graph

section

variable (g : Graph)

/-- A pair belongs to a mapping, or to one that the mapping merges. -/
inductive Owns : Nat → Nat × Nat → Prop where
  | own {id : Nat} {p : Nat × Nat} : p ∈ g.pairs id → Owns id p
  | merged {id part : Nat} {p q : Nat × Nat} : Owns id p → g.tag p.1 = .merge →
      part ∈ g.merged p.2 → Owns part q → Owns id q

/-- The graph once mappings of it have been flattened. The default key has become a text then. -/
structure Keeps (h : Graph) : Prop where
  size : h.size = g.size
  start : h.start = g.start
  tag : ∀ id, h.tag id = g.tag id ∨ g.tag id = .value ∧ h.tag id = .str
  content : ∀ id, h.content id = g.content id ∨ g.IsMapping id ∧ h.IsMapping id
  pairs : ∀ id, ∀ p ∈ h.pairs id, g.Owns id p

end

variable {g h : Graph} {id : Nat} {gathered pairs before after : List (Nat × Nat)}

/-! ### Changing a tag -/

theorem tag_setTag (g : Graph) (id : Nat) (tag : Tag) (other : Nat) :
    (g.setTag id tag).tag other = if id = other ∧ id < g.size then tag else g.tag other := by
  simp only [Graph.tag, setTag, Array.getElem?_modify]
  by_cases here : id = other
  · subst here
    by_cases inside : id < g.size <;> simp [inside]
  · simp [here]

@[simp] theorem content_setTag (g : Graph) (id : Nat) (tag : Tag) :
    (g.setTag id tag).content = g.content := by
  funext other
  simp only [Graph.content, setTag, Array.getElem?_modify]
  split
  next => cases g[other]? <;> rfl
  next => rfl

@[simp] theorem start_setTag (g : Graph) (id : Nat) (tag : Tag) :
    (g.setTag id tag).start = g.start := by
  funext other
  simp only [Graph.start, setTag, Array.getElem?_modify]
  split
  next => cases g[other]? <;> rfl
  next => rfl

@[simp] theorem size_setTag (g : Graph) (id : Nat) (tag : Tag) : (g.setTag id tag).size = g.size :=
  Array.size_modify

/-! ### Kinds of nodes -/

theorem IsMapping.lt (mapping : g.IsMapping id) : id < g.size := by
  obtain ⟨pairs, isMapping⟩ := mapping
  by_contra outside
  simp [Graph.content, Array.getElem?_eq_none (Nat.not_lt.mp outside)] at isMapping

theorem isMapping_of_mem_pairs {p : Nat × Nat} (member : p ∈ g.pairs id) : g.IsMapping id := by
  unfold Graph.pairs at member
  split at member
  next pairs isMapping => exact ⟨pairs, isMapping⟩
  next => cases member

theorem Owns.isMapping {p : Nat × Nat} (owned : g.Owns id p) : g.IsMapping id := by
  induction owned with
  | own member => exact isMapping_of_mem_pairs member
  | merged _ _ _ _ ih _ => exact ih

namespace Keeps

theorem refl (g : Graph) : g.Keeps g :=
  ⟨rfl, rfl, fun _ => .inl rfl, fun _ => .inl rfl, fun _ _ => .own⟩

theorem isMapping_iff (keeps : g.Keeps h) : h.IsMapping id ↔ g.IsMapping id := by
  rcases keeps.content id with same | ⟨before, now⟩
  · rw [IsMapping, IsMapping, same]
  · exact iff_of_true now before

/-- What is no mapping is as it was. -/
theorem content_of_ne (keeps : g.Keeps h) (other : ¬ h.IsMapping id) :
    h.content id = g.content id :=
  (keeps.content id).resolve_right fun both => other both.2

theorem merged (keeps : g.Keeps h) (id : Nat) : h.merged id = g.merged id := by
  rcases keeps.content id with same | ⟨before, now⟩
  · rw [Graph.merged, Graph.merged, same]
  · rw [Graph.merged, Graph.merged, before.content, now.content]

/-- No tag but that of a text is new. -/
theorem tag_eq (keeps : g.Keeps h) {tag : Tag} (here : h.tag id = tag) (other : tag ≠ .str) :
    g.tag id = tag := by
  rcases keeps.tag id with same | ⟨-, text⟩
  · exact same ▸ here
  · exact absurd (here ▸ text) other

theorem setContent (keeps : g.Keeps h) (mapping : h.IsMapping id)
    (owned : ∀ p ∈ pairs, g.Owns id p) : g.Keeps (h.setContent id (.mapping pairs)) := by
  refine ⟨by simp [keeps.size], by simp [keeps.start], by simpa using keeps.tag, ?_, ?_⟩
  · intro other
    simp only [IsMapping, content_setContent]
    split
    next here => exact .inr ⟨here.1 ▸ keeps.isMapping_iff.mp mapping, pairs, rfl⟩
    next => exact keeps.content other
  · intro other p member
    by_cases here : id = other
    · subst here
      rw [pairs_setContent_self mapping.lt] at member
      exact owned p member
    · rw [Graph.pairs, content_setContent_of_ne _ here, ← Graph.pairs] at member
      exact keeps.pairs other p member

theorem setTag (keeps : g.Keeps h) (default : h.tag id = .value) : g.Keeps (h.setTag id .str) := by
  refine ⟨by simp [keeps.size], by simp [keeps.start], fun other => ?_, ?_, ?_⟩
  · rw [tag_setTag]
    split
    next here => exact .inr ⟨here.1 ▸ keeps.tag_eq default (by simp), rfl⟩
    next => exact keeps.tag other
  · simpa [IsMapping] using keeps.content
  · simpa [Graph.pairs] using keeps.pairs

theorem plainKeys (keeps : g.Keeps h) (pairs : List (Nat × Nat)) :
    g.Keeps (Construction.plainKeys h pairs) := by
  unfold Construction.plainKeys
  induction pairs generalizing h with
  | nil => exact keeps
  | cons p pairs ih =>
    rw [List.foldl_cons]
    split
    next default => exact ih (keeps.setTag (beq_iff_eq.mp default))
    next => exact ih keeps

end Keeps

theorem eq_of_splitMerge {v : Nat} (h : Construction.splitMerge g pairs = some (before, v, after)) :
    ∃ k, g.tag k = .merge ∧ pairs = before ++ (k, v) :: after := by
  induction pairs generalizing before with
  | nil => simp [Construction.splitMerge] at h
  | cons p pairs ih =>
    unfold Construction.splitMerge at h
    split at h
    next here =>
      obtain ⟨rfl, rfl, rfl⟩ : [] = before ∧ p.2 = v ∧ pairs = after := by simpa using h
      exact ⟨p.1, beq_iff_eq.mp here, rfl⟩
    next =>
      simp only [Option.map_eq_some_iff, Prod.mk.injEq] at h
      obtain ⟨⟨before', v', after'⟩, found, rfl, rfl, rfl⟩ := h
      obtain ⟨k, tag, same⟩ := ih found
      exact ⟨k, tag, by rw [same]; rfl⟩

/-- What a mapping merges belongs to it with all its pairs. -/
theorem Keeps.owns_of_merged (keeps : g.Keeps h) {p : Nat × Nat} (member : p ∈ h.pairs id)
    (tag : h.tag p.1 = .merge) {part : Nat} (inside : part ∈ g.merged p.2) {q : Nat × Nat}
    (owned : g.Owns part q) : g.Owns id q :=
  .merged (keeps.pairs id p member) (keeps.tag_eq tag (by simp)) inside owned

/-- Groups of pairs that belong to a mapping, with the graph that they have been gathered from. -/
def Gathers (g : Graph) (id : Nat) (s : Graph × List (List (Nat × Nat))) : Prop :=
  g.Keeps s.1 ∧ ∀ group ∈ s.2, ∀ p ∈ group, g.Owns id p

/-- Flattening keeps the graph, or has a problem to report. -/
theorem Keeps.flatten (keeps : g.Keeps h) {n : Nat} (mapping : h.IsMapping id)
    (owned : ∀ p ∈ gathered, g.Owns id p) :
    Ends g.Keeps (fun f => ∃ r, f = .report r) (Construction.flatten n gathered id h) := by
  induction n generalizing gathered id h with
  | zero => exact keeps
  | succ n ih =>
    unfold Construction.flatten
    split
    next none =>
      have plain := keeps.plainKeys (h.pairs id)
      refine plain.setContent (plain.isMapping_iff.mpr (keeps.isMapping_iff.mp mapping)) ?_
      exact List.forall_mem_append.mpr ⟨owned, keeps.pairs id⟩
    next before v after split =>
      obtain ⟨k, tag, all⟩ := eq_of_splitMerge split
      have here : (k, v) ∈ h.pairs id := by simp [all]
      -- Whatever is taken over from a part of the value belongs to the mapping.
      have taken {h' : Graph} (kept : g.Keeps h') {part : Nat} (inside : part ∈ g.merged v) :
          ∀ p ∈ h'.pairs part, g.Owns id p := fun p member =>
        keeps.owns_of_merged here tag inside (kept.pairs part p member)
      have less : g.Keeps (h.setContent id (.mapping (before ++ after))) := by
        refine keeps.setContent mapping fun p member => keeps.pairs id p ?_
        rw [all]
        exact List.mem_append.mpr ((List.mem_append.mp member).imp_right (List.mem_cons_of_mem _))
      have still {h' : Graph} (kept : g.Keeps h') : h'.IsMapping id :=
        kept.isMapping_iff.mpr (keeps.isMapping_iff.mp mapping)
      dsimp only
      split
      next pairs isMapping =>
        have inside : v ∈ g.merged v := by
          rw [← less.merged v, Graph.merged, isMapping]
          exact List.mem_singleton_self v
        refine (ih less ⟨pairs, isMapping⟩ (List.forall_mem_nil _)).bind fun h' kept => ?_
        exact ih kept (still kept) (List.forall_mem_append.mpr ⟨owned, taken kept inside⟩)
      next items isSequence =>
        have parts : g.merged v = items.reverse := by rw [← less.merged v, Graph.merged, isSequence]
        refine (@Ends.foldlM _ _ _ _ _ (g.Gathers id) _ _ ⟨less, List.forall_mem_nil _⟩ ?_).bind
          fun s ⟨kept, groups⟩ => ih kept (still kept) (List.forall_mem_append.mpr ⟨owned, ?_⟩)
        · rintro ⟨h', groups⟩ item member ⟨kept, before⟩
          dsimp only
          split
          next pairs isMapping =>
            refine (ih kept ⟨pairs, isMapping⟩ (List.forall_mem_nil _)).bind fun h'' kept' => ?_
            exact ⟨kept', List.forall_mem_cons.mpr
              ⟨taken kept' (parts ▸ List.mem_reverse.mpr member), before⟩⟩
          next => exact ⟨_, rfl⟩
        · intro p member
          obtain ⟨group, inside, member⟩ := List.mem_flatten.mp member
          exact groups group inside p member
      next => exact ⟨_, rfl⟩

end Graph

end JobMatrix.Yaml
