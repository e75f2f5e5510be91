import JobMatrix.Proofs.Yaml.Visiting

set_option autoImplicit false

/-!
Filling the collections of a document. Each one that is filled has the data that it stands for, or
the construction ends with a complaint about a key that it repeats; so does filling all of them,
for which there are steps enough.
-/

namespace JobMatrix.Yaml

def Fault.problem? : Fault → Option String
  | .report r => some r.problem
  | _ => none

/-- The complaint about a key that a mapping writes twice. -/
def Fault.IsDuplicate (f : Fault) : Prop := ∃ key, f.problem? = some ("found duplicate key " ++ key)

namespace Construction

variable {g : Graph} {done : List Nat} {c c' c'' : Construction} {id : Nat}

/-- A collection that has been filled, with all its parts met. -/
structure Filled (g : Graph) (c : Construction) (id : Nat) : Prop where
  list : ∀ items, g.content id = .sequence items →
    c.made? id = some (.list items) ∧ ∀ item ∈ items, (c.made? item).isSome
  map : g.IsMapping id → c.made? id = some (.map (g.entriesOf id)) ∧ g.Distinct id ∧
    ∀ p ∈ g.allPairs id, (c.made? p.1).isSome ∧ (c.made? p.2).isSome

/-! ### The keys of a mapping -/

/-- A node that can be the key of a mapping whose data is made. -/
structure MakesKey (g : Graph) (id : Nat) : Prop where
  constructed : g.Constructed id
  scalar : ∃ text, g.content id = .scalar text
  shown : ∀ v ∈ g.keyOf id, v.literal?.isSome

/-- Keys that are neither like one another nor like those seen before. -/
def Unlike (seen keys : List Value) : Prop :=
  keys.Pairwise (fun k l => k.same l = false) ∧ ∀ s ∈ seen, ∀ k ∈ keys, s.same k = false

theorem unlike_cons {seen keys : List Value} {k : Value} :
    Unlike seen (k :: keys) ↔ (∀ s ∈ seen, s.same k = false) ∧ Unlike (k :: seen) keys := by
  simp only [Unlike, List.pairwise_cons, List.forall_mem_cons]
  constructor
  · rintro ⟨⟨first, later⟩, seen⟩
    exact ⟨fun s member => (seen s member).1, later, first, fun s member => (seen s member).2⟩
  · rintro ⟨here, later, first, seen⟩
    exact ⟨⟨first, later⟩, fun s member => ⟨here s member, seen s member⟩⟩

theorem Invariant.key (inv : Invariant g done c) (scalar : ∃ text, g.content id = .scalar text)
    (met : (c.made? id).isSome) : ∃ v, c.key? id = some v ∧ g.keyOf id = some v := by
  obtain ⟨text, isScalar⟩ := scalar
  obtain ⟨cell, found⟩ := Option.isSome_iff_exists.mp met
  obtain ⟨v, read, rfl⟩ := inv.scalar id text isScalar cell found
  refine ⟨v, ?_, by rw [Graph.keyOf, read]; rfl⟩
  unfold made? at found
  rw [key?, found]

theorem keyed_cons {p : Nat × Nat} {pairs : List (Nat × Nat)} {v : Value}
    (key : g.keyOf p.1 = some v) : g.keyed (p :: pairs) = (v, p.2) :: g.keyed pairs := by
  simp [Graph.keyed, key]

variable (regular : g.Regular) (closed : g.Closed)

include regular closed

theorem Invariant.checkKeys (inv : Invariant g done c) (m : Mark) (seen : List Value)
    {pairs : List (Nat × Nat)} (keys : ∀ p ∈ g.plainPairs pairs, MakesKey g p.1) :
    (∃ c', checkKeys m seen pairs c = .ok c' ∧ Invariant g done c' ∧ Extends c c' ∧
      Unlike seen ((g.keyed (g.plainPairs pairs)).map Prod.fst)) ∨
    ∃ f, checkKeys m seen pairs c = .error f ∧ f.IsDuplicate ∧
      ¬ Unlike seen ((g.keyed (g.plainPairs pairs)).map Prod.fst) := by
  induction pairs generalizing seen c with
  | nil => exact .inl ⟨c, rfl, inv, .refl c, List.Pairwise.nil, fun _ _ _ => nofun⟩
  | cons p pairs ih =>
    rw [Graph.plainPairs_cons] at keys ⊢
    unfold Construction.checkKeys
    rw [inv.graph.tag]
    split at keys
    next merge =>
      rw [if_pos merge, if_pos merge]
      exact ih inv seen keys
    next plain =>
      rw [if_neg plain, if_neg plain]
      obtain ⟨here, later⟩ := List.forall_mem_cons.mp keys
      obtain ⟨c₁, visited, inv₁, extends₁, met⟩ :=
        inv.visit regular here.constructed (here.constructed.lt closed)
      obtain ⟨v, key, keyOf⟩ := inv₁.key here.scalar met
      rw [visited, ok_bind, keyed_cons keyOf, List.map_cons, unlike_cons]
      simp only [key]
      split
      next like =>
        -- The complaint is about the key as it is shown.
        obtain ⟨text, shown⟩ := Option.isSome_iff_exists.mp (here.shown v keyOf)
        rw [shown]
        refine .inr ⟨_, rfl, ⟨text, rfl⟩, fun unlike => ?_⟩
        obtain ⟨s, member, same⟩ := List.any_eq_true.mp like
        simp [unlike.1 s member] at same
      next unlike =>
        have fresh : ∀ s ∈ seen, s.same v = false := fun s member => by
          simpa using fun same => unlike (List.any_eq_true.mpr ⟨s, member, same⟩)
        rcases ih inv₁ (v :: seen) later with
          ⟨c₂, checked, inv₂, extends₂, rest⟩ | ⟨f, failed, dup, rest⟩
        · exact .inl ⟨c₂, checked, inv₂, extends₁.trans extends₂, fresh, rest⟩
        · exact .inr ⟨f, failed, dup, fun unlike => rest unlike.2⟩

/-- The entries of pairs: a later pair of an equal key gives the value. -/
theorem Invariant.entries (inv : Invariant g done c) (m : Mark) (es : List (Value × Nat))
    {pairs : List (Nat × Nat)}
    (parts : ∀ p ∈ pairs, MakesKey g p.1 ∧ g.Constructed p.2) :
    ∃ c', entries m es pairs c = .ok (putAll Value.same es (g.keyed pairs), c') ∧
      Invariant g done c' ∧ Extends c c' ∧
      ∀ p ∈ pairs, (c'.made? p.1).isSome ∧ (c'.made? p.2).isSome := by
  induction pairs generalizing es c with
  | nil => exact ⟨c, rfl, inv, .refl c, by simp⟩
  | cons p pairs ih =>
    obtain ⟨⟨here, value⟩, later⟩ := List.forall_mem_cons.mp parts
    obtain ⟨c₁, visited₁, inv₁, extends₁, metKey⟩ :=
      inv.visit regular here.constructed (here.constructed.lt closed)
    obtain ⟨v, key, keyOf⟩ := inv₁.key here.scalar metKey
    obtain ⟨c₂, visited₂, inv₂, extends₂, metValue⟩ := inv₁.visit regular value (value.lt closed)
    obtain ⟨c₃, made, inv₃, extends₃, met⟩ := ih inv₂ (put Value.same es v p.2) later
    refine ⟨c₃, ?_, inv₃, (extends₁.trans extends₂).trans extends₃, ?_⟩
    · unfold Construction.entries
      simp only [visited₁, ok_bind, key, visited₂]
      rw [made, keyed_cons keyOf]
      rfl
    · rw [List.forall_mem_cons]
      exact ⟨⟨(extends₂.trans extends₃).isSome metKey, extends₃.isSome metValue⟩, met⟩

theorem Invariant.visitAll (inv : Invariant g done c) {items : List Nat}
    (parts : ∀ item ∈ items, g.Constructed item) :
    ∃ c', items.foldlM Construction.visit c = .ok c' ∧ Invariant g done c' ∧ Extends c c' ∧
      ∀ item ∈ items, (c'.made? item).isSome := by
  induction items generalizing c with
  | nil => exact ⟨c, rfl, inv, .refl c, by simp⟩
  | cons item items ih =>
    obtain ⟨here, later⟩ := List.forall_mem_cons.mp parts
    obtain ⟨c₁, visited, inv₁, extends₁, met⟩ := inv.visit regular here (here.lt closed)
    obtain ⟨c₂, made, inv₂, extends₂, rest⟩ := ih inv₁ later
    refine ⟨c₂, ?_, inv₂, extends₁.trans extends₂, ?_⟩
    · rw [List.foldlM_cons, visited, ok_bind, made]
    · rw [List.forall_mem_cons]
      exact ⟨extends₂.isSome met, rest⟩

omit closed in
theorem makesKey_of_mem (constructed : g.Constructed id) {p : Nat × Nat}
    (member : p ∈ g.allPairs id) : MakesKey g p.1 ∧ g.Constructed p.2 :=
  ⟨⟨constructed.key member, (regular.keys id constructed p member).1,
    (regular.keys id constructed p member).2⟩, constructed.value member⟩

theorem Invariant.flatten (inv : Invariant g done c) (constructed : g.Constructed id)
    (mapping : g.IsMapping id) (same : c.graph.content id = g.content id) :
    Construction.flatten (mergeCount c.graph + 1) [] id c.graph =
      .ok (c.graph.setContent id (.mapping (g.allPairs id))) := by
  have flat := regular.merges id constructed
  have pairs : c.graph.pairs id = g.pairs id := by rw [Graph.pairs, same, ← Graph.pairs]
  have all := inv.graph.allPairs flat same
  rw [← all]
  refine Graph.flatten_eq_ok ?_ (inv.graph.size ▸ constructed.lt closed) ?_ ?_
  · rwa [Graph.IsMapping, same]
  · rw [pairs, inv.graph.mergeValues]
    exact fun v member => (inv.graph.flat (flat v member)).1
  · rw [all, inv.graph.tag]
    intro p member
    obtain ⟨⟨key, ⟨text, isScalar⟩, -⟩, -⟩ := makesKey_of_mem regular constructed member
    obtain ⟨v, read⟩ := regular.scalars p.1 key text isScalar
    exact tag_of_scalarValue isScalar read

omit regular closed in
theorem entriesOf_eq (g : Graph) (id : Nat) :
    g.entriesOf id = putAll Value.same [] (g.keyed (g.allPairs id)) := by
  rw [Graph.entriesOf, Graph.keyed, Graph.keyed, Graph.allPairs, Graph.keyed, List.filterMap_append,
    putAll, putAll, putAll, List.foldl_append]

/-- A mapping that is being filled has the entries that it should have, or repeats a key. -/
theorem Invariant.mappingEntries (inv : Invariant g done c) (inDone : id ∈ done)
    (mapping : g.IsMapping id) (same : c.graph.content id = g.content id) :
    (∃ c', mappingEntries c id = .ok (g.entriesOf id, c') ∧ Invariant g done c' ∧
      (∀ other cell, c.made? other = some cell → c'.made? other = some cell) ∧ g.Distinct id ∧
      ∀ p ∈ g.allPairs id, (c'.made? p.1).isSome ∧ (c'.made? p.2).isSome) ∨
    ∃ f, mappingEntries c id = .error f ∧ f.IsDuplicate ∧ ¬ g.Distinct id := by
  have constructed := inv.constructed id (inv.done.2 id inDone)
  have parts (p : Nat × Nat) (member : p ∈ g.allPairs id) :=
    makesKey_of_mem regular constructed member
  have distinct : Unlike [] ((g.keyed (g.plainPairs (g.pairs id))).map Prod.fst) ↔ g.Distinct id :=
    and_iff_left (by simp)
  unfold Construction.mappingEntries
  rw [same, mapping.content]
  dsimp only
  have keys : ∀ p ∈ g.plainPairs (g.pairs id), MakesKey g p.1 := fun p member =>
    (parts p (List.mem_append_right _ member)).1
  rcases inv.checkKeys regular closed (c.graph.start id) [] keys with
    ⟨c₁, checked, inv₁, extends₁, unlike⟩ | ⟨f, failed, dup, like⟩
  · have same₁ : c₁.graph.content id = g.content id := by rw [extends₁.graph, same]
    have flat := inv₁.flatten regular closed constructed mapping same₁
    have inv₁' := inv₁.withGraph (inv₁.graph.setContent inDone mapping)
    have pairs : (c₁.graph.setContent id (.mapping (g.allPairs id))).pairs id = g.allPairs id :=
      Graph.pairs_of_content (by
        rw [Graph.content_setContent, if_pos ⟨rfl, inv₁.graph.size ▸ constructed.lt closed⟩])
    obtain ⟨c₂, made, inv₂, extends₂, met⟩ :=
      inv₁'.entries regular closed (c.graph.start id) [] parts
    refine .inl ⟨c₂, ?_, inv₂, fun other cell found => ?_, distinct.mp unlike, met⟩
    · simp only [checked, ok_bind, flat, pairs]
      rw [made, entriesOf_eq]
    · exact extends₂.made other cell (extends₁.made other cell found)
  · refine .inr ⟨f, ?_, dup, fun unlike => like (distinct.mpr unlike)⟩
    rw [failed]
    rfl

/-! ### Filling the collections -/

section

omit regular closed

theorem Invariant.pop {rest : List Nat} (inv : Invariant g done c) (next : c.pending = id :: rest) :
    Invariant g (id :: done) { c with pending := rest } ∧ c.graph.content id = g.content id ∧
      ∀ text, g.content id ≠ .scalar text := by
  have first : id ∈ c.pending := next ▸ List.mem_cons_self
  obtain ⟨met, notDone, noScalar⟩ := inv.pending id first
  have unfilled : c.graph.content id = g.content id :=
    (inv.graph.content id).resolve_right fun flattened => notDone flattened.1
  have nodup := inv.distinct
  rw [next, List.nodup_cons] at nodup
  refine ⟨⟨?_, inv.size, inv.constructed, inv.scalar, ?_, ?_, nodup.2, ?_⟩, unfilled, noScalar⟩
  · exact ⟨inv.graph.size, inv.graph.tag, inv.graph.start, fun other =>
      (inv.graph.content other).imp_right fun flattened =>
        ⟨List.mem_cons_of_mem id flattened.1, flattened.2⟩⟩
  · intro other here
    refine (inv.collection other here).imp_right ?_
    rw [next]
    rintro (waits | before)
    · exact (List.mem_cons.mp waits).symm.imp_right fun same => List.mem_cons.mpr (.inl same)
    · exact .inr (List.mem_cons_of_mem id before)
  · intro other member
    obtain ⟨here, before, kind⟩ := inv.pending other (next ▸ List.mem_cons_of_mem id member)
    refine ⟨here, ?_, kind⟩
    rintro same
    rcases List.mem_cons.mp same with rfl | inDone
    · exact nodup.1 member
    · exact before inDone
  · exact ⟨List.nodup_cons.mpr ⟨notDone, inv.done.1⟩,
      List.forall_mem_cons.mpr ⟨met, inv.done.2⟩⟩

theorem Filled.mono {other : Nat} (filled : Filled g c other)
    (itself : ∀ cell, c.made? other = some cell → c'.made? other = some cell)
    (met : ∀ part, (c.made? part).isSome → (c'.made? part).isSome) : Filled g c' other := by
  constructor
  · intro items isSequence
    obtain ⟨cell, parts⟩ := filled.list items isSequence
    exact ⟨itself _ cell, fun item member => met item (parts item member)⟩
  · intro mapping
    obtain ⟨cell, distinct, parts⟩ := filled.map mapping
    exact ⟨itself _ cell, distinct, fun p member =>
      ⟨met p.1 (parts p member).1, met p.2 (parts p member).2⟩⟩

/-- The collection that is being filled gets its data, and all that are done have theirs. -/
theorem Invariant.finish {cell : Cell} (inv : Invariant g (id :: done) c') (inside : id < g.size)
    (filled : ∀ other ∈ done, Filled g c other)
    (made : ∀ other cell, c.made? other = some cell → c'.made? other = some cell)
    (noScalar : ∀ text, g.content id ≠ .scalar text)
    (itself : Filled g { c' with cells := c'.cells.setIfInBounds id (some cell) } id) :
    let c'' : Construction := { c' with cells := c'.cells.setIfInBounds id (some cell) }
    Invariant g (id :: done) c'' ∧ (∀ other ∈ id :: done, Filled g c'' other) ∧
      ∀ other, (c.made? other).isSome → (c''.made? other).isSome := by
  have inDone : id ∈ id :: done := List.mem_cons_self
  have met (other : Nat) (before : (c.made? other).isSome) :
      (made? { c' with cells := c'.cells.setIfInBounds id (some cell) } other).isSome := by
    obtain ⟨cell', found⟩ := Option.isSome_iff_exists.mp before
    exact isSome_set (by rw [made other cell' found]; rfl)
  refine ⟨?_, List.forall_mem_cons.mpr ⟨itself, ?_⟩, met⟩
  · exact inv.setCell (inv.constructed id (inv.done.2 id inDone)) inside
      (fun text isScalar => absurd isScalar (noScalar text)) (fun _ waits => waits)
      (.inr (.inr inDone)) (fun _ => .inl) inv.distinct
  · intro other member
    refine (filled other member).mono (fun cell' found => ?_) met
    have apart : id ≠ other := fun same => (List.nodup_cons.mp inv.done.1).1 (same ▸ member)
    rw [made?_set, if_neg fun here => apart here.1]
    exact made other cell' found

theorem fill_map (tag : c.graph.tag id = .map) :
    fill c id = mappingEntries c id >>= fun r =>
      .ok { r.2 with cells := r.2.cells.setIfInBounds id (some (.map r.1)) } := by
  simp only [fill, tag]
  cases mappingEntries c id <;> rfl

theorem fill_seq {items : List Nat} (tag : c.graph.tag id = .seq)
    (content : c.graph.content id = .sequence items) :
    fill c id = items.foldlM Construction.visit c >>= fun c' =>
      .ok { c' with cells := c'.cells.setIfInBounds id (some (.list items)) } := by
  simp only [fill, tag, content]
  cases items.foldlM Construction.visit c <;> rfl

end

theorem Invariant.fill {rest : List Nat} (inv : Invariant g done c) (next : c.pending = id :: rest)
    (filled : ∀ other ∈ done, Filled g c other) :
    (∃ c', fill { c with pending := rest } id = .ok c' ∧ Invariant g (id :: done) c' ∧
      (∀ other ∈ id :: done, Filled g c' other) ∧ ∀ other, (c.made? other).isSome →
        (c'.made? other).isSome) ∨
    ∃ f, fill { c with pending := rest } id = .error f ∧ f.IsDuplicate ∧ g.Constructed id ∧
      g.IsMapping id ∧ ¬ g.Distinct id := by
  obtain ⟨popped, same, noScalar⟩ := inv.pop next
  have inDone : id ∈ id :: done := List.mem_cons_self
  have constructed : g.Constructed id := popped.constructed id (popped.done.2 id inDone)
  have inside : id < g.size := constructed.lt closed
  have here {c₁ : Construction} {cell : Cell} (inv₁ : Invariant g (id :: done) c₁) :
      made? { c₁ with cells := c₁.cells.setIfInBounds id (some cell) } id = some cell := by
    rw [made?_set, if_pos ⟨rfl, inv₁.size ▸ inside⟩]
  cases content : g.content id with
  | scalar text => exact absurd content (noScalar text)
  | sequence items =>
    have tag := popped.graph.tag ▸ regular.sequences id constructed items content
    obtain ⟨c₁, visited, inv₁, extends₁, met⟩ :=
      popped.visitAll regular closed fun item member => constructed.item content member
    refine .inl ⟨_, by rw [fill_seq tag (same.trans content), visited, ok_bind], ?_⟩
    apply inv₁.finish inside filled extends₁.made noScalar
    constructor
    · intro items' isSequence
      obtain rfl : items = items' := Content.sequence.inj (content.symm.trans isSequence)
      exact ⟨here inv₁, fun item member => isSome_set (met item member)⟩
    · rintro ⟨pairs, mapping⟩
      simp [content] at mapping
  | mapping pairs =>
    have mapping : g.IsMapping id := ⟨pairs, content⟩
    have tag := popped.graph.tag ▸ regular.mappings id constructed mapping
    rcases popped.mappingEntries regular closed inDone mapping same with
      ⟨c₁, entries, inv₁, made, distinct, met⟩ | ⟨f, failed, dup, repeats⟩
    · refine .inl ⟨_, by rw [fill_map tag, entries, ok_bind], ?_⟩
      apply inv₁.finish inside filled made noScalar
      constructor
      · intro items isSequence
        simp [content] at isSequence
      · intro _
        exact ⟨here inv₁, distinct, fun p member =>
          ⟨isSome_set (met p member).1, isSome_set (met p member).2⟩⟩
    · exact .inr ⟨f, by rw [fill_map tag, failed]; rfl, dup, constructed, mapping, repeats⟩

/-- Filling all collections. As many as there are nodes can be done. -/
theorem Invariant.fillAll {n : Nat} (inv : Invariant g done c)
    (filled : ∀ other ∈ done, Filled g c other) (enough : g.size < n + done.length) :
    (∃ c' done', fillAll n c = .ok c' ∧ Invariant g done' c' ∧ c'.pending = [] ∧
      (∀ other ∈ done', Filled g c' other) ∧ ∀ other, (c.made? other).isSome →
        (c'.made? other).isSome) ∨
    ∃ f id, fillAll n c = .error f ∧ f.IsDuplicate ∧ g.Constructed id ∧ g.IsMapping id ∧
      ¬ g.Distinct id := by
  induction n generalizing c done with
  | zero =>
    -- The collections that are done are different nodes of the graph.
    have few : done.length ≤ (List.range g.size).length :=
      (List.subperm_of_subset inv.done.1 fun other member => List.mem_range.mpr
        ((inv.constructed other (inv.done.2 other member)).lt closed)).length_le
    rw [List.length_range] at few
    omega
  | succ n ih =>
    unfold Construction.fillAll
    cases next : c.pending with
    | nil => exact .inl ⟨c, done, rfl, inv, next, filled, fun _ met => met⟩
    | cons id rest =>
      dsimp only
      rcases inv.fill regular closed next filled with
        ⟨c₁, made, inv₁, filled₁, met₁⟩ | ⟨f, failed, dup⟩
      · rw [made, ok_bind]
        rcases ih inv₁ filled₁ (by simp only [List.length_cons]; omega) with
          ⟨c₂, done', made', inv₂, none, filled₂, met₂⟩ | ⟨f, other, failed, dup⟩
        · exact .inl ⟨c₂, done', made', inv₂, none, filled₂,
            fun other met => met₂ other (met₁ other met)⟩
        · exact .inr ⟨f, other, failed, dup⟩
      · rw [failed]
        exact .inr ⟨f, id, rfl, dup⟩

omit regular closed in
/-- When nothing is pending, everything that is to be made has been. -/
theorem Invariant.met_of_constructed (inv : Invariant g done c) (none : c.pending = [])
    (filled : ∀ other ∈ done, Filled g c other) (root : (c.made? 0).isSome)
    (constructed : g.Constructed id) : (c.made? id).isSome := by
  have inDone {other : Nat} (met : (c.made? other).isSome)
      (noScalar : ∀ text, g.content other ≠ .scalar text) : Filled g c other := by
    rcases inv.collection other met with ⟨text, isScalar⟩ | waits | inDone
    · exact absurd isScalar (noScalar text)
    · simp [none] at waits
    · exact filled other inDone
  have inMapping {m : Nat} {p : Nat × Nat} (met : (c.made? m).isSome) (member : p ∈ g.allPairs m) :
      (c.made? p.1).isSome ∧ (c.made? p.2).isSome := by
    have mapping := Graph.isMapping_of_mem member
    exact ((inDone met (by rw [mapping.content]; simp)).map mapping).2.2 p member
  induction constructed with
  | root => exact root
  | item _ isSequence member ih =>
    exact ((inDone ih (by simp [isSequence])).list _ isSequence).2 _ member
  | key _ member ih => exact (inMapping ih member).1
  | value _ member ih => exact (inMapping ih member).2

end Construction

end JobMatrix.Yaml
