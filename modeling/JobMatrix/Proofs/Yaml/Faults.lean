import JobMatrix.Proofs.Yaml.Composing
import JobMatrix.Proofs.Yaml.Keeping
import JobMatrix.Proofs.Yaml.Visiting
import Mathlib.Data.Fintype.Card
import Mathlib.Logic.Relation

set_option autoImplicit false

/-!
What can be wrong with the data of a document. Every fault but a report has its cause in the nodes:
a scalar that its tag does not read, a tag of mappings on something else, a key that is repeated and
too long to write, or a default value that leads back to itself.
-/

namespace JobMatrix.Yaml

/-- The name of a kind of nodes. -/
def Content.nodeName : Content → String
  | .scalar _ => "ScalarNode"
  | .sequence _ => "SequenceNode"
  | .mapping _ => "MappingNode"

namespace Graph

variable (g : Graph)

/-- The value of a default key stands for the mapping where a scalar is asked for. -/
def Defaults (id v : Nat) : Prop := ∃ k, g.Owns id (k, v) ∧ g.tag k = .value

/-- The text of a node where a scalar is asked for. -/
inductive Spells : Nat → Text → Prop where
  | own {id : Nat} {text : Text} : g.content id = .scalar text → Spells id text
  | default {id v : Nat} {text : Text} : g.Defaults id v → Spells v text → Spells id text

/-- What the tag of a node makes of a text that the node spells. -/
def ReadAs (id : Nat) (outcome : Reading Value) : Prop :=
  ∃ read text, Scalar.reader? id (g.start id) (g.tag id) = some read ∧ g.Spells id text ∧
    read text = outcome

/-- A value that a scalar can have. A default key that has been flattened is a text. -/
inductive Reads (id : Nat) : Value → Prop where
  | read {v : Value} : g.ReadAs id (.ok v) → Reads id v
  | default {text : Text} : g.tag id = .value → g.Spells id text → Reads id (.text text)

/-- What is wrong with the data of a graph. -/
inductive DataFault : Fault → Prop where
  | report (r : Report) : DataFault (.report r)
  /-- A scalar that its tag does not read. -/
  | unread {id : Nat} {f : Fault} (failed : g.ReadAs id (.error f)) : DataFault f
  | timestampCollection {id : Nat} (tag : g.tag id = .timestamp) (mapping : g.IsMapping id) :
      DataFault (.scalar .timestampCollection)
  /-- The tag of mappings or of sets on a text or on a sequence. -/
  | charactersAsPairs {id : Nat} {text : Text} (tag : g.tag id = .map ∨ g.tag id = .set)
      (scalar : g.content id = .scalar text) (some : text ≠ []) : DataFault .charactersAsPairs
  | itemAsPair {id item : Nat} {rest : List Nat} (tag : g.tag id = .map ∨ g.tag id = .set)
      (sequence : g.content id = .sequence (item :: rest)) :
      DataFault (.itemAsPair (g.content item).nodeName)
  /-- Two equal keys of a mapping, too long to be written into a report. -/
  | longKey {id : Nat} {p q : Nat × Nat} {v w : Value} (first : g.Owns id p) (second : g.Owns id q)
      (before : g.Reads p.1 v) (again : g.Reads q.1 w) (same : v.same w = true)
      (long : w.literal? = none) : DataFault .longKey
  /-- A default value that leads back to itself. -/
  | endless {id : Nat} (loop : Relation.TransGen g.Defaults id id) : DataFault .endless

variable {g} {h : Graph} {id : Nat}

theorem Keeps.nodeName (keeps : g.Keeps h) (id : Nat) :
    (h.content id).nodeName = (g.content id).nodeName := by
  rcases keeps.content id with same | ⟨before, now⟩
  · rw [same]
  · rw [before.content, now.content]
    rfl

/-- A scalar or a sequence is what it was. -/
theorem Keeps.content_eq (keeps : g.Keeps h) {content : Content} (here : h.content id = content)
    (other : ∀ pairs, content ≠ .mapping pairs) : g.content id = content := by
  rw [← keeps.content_of_ne fun ⟨pairs, isMapping⟩ => other pairs (here.symm.trans isMapping), here]

/-! ### Texts -/

/-- A way along a relation that is longer than there are places to go on from leads in a circle. -/
theorem exists_circle {R : Nat → Nat → Prop} {n : Nat} (bound : ∀ x y, R x y → x < n)
    {way : Nat → Nat} (steps : ∀ k ≤ n, R (way k) (way (k + 1))) :
    ∃ x, Relation.TransGen R x x := by
  have ahead (i j : Nat) (least : i < j) (most : j ≤ n) : Relation.TransGen R (way i) (way j) := by
    induction j, least using Nat.le_induction with
    | base => exact .single (steps i (by omega))
    | succ j least ih => exact (ih (by omega)).tail (steps j (by omega))
  have places : Set.MapsTo way (Finset.range (n + 1)) (Finset.range n) := fun k member => by
    have := bound _ _ (steps k (by simpa [Nat.lt_succ_iff] using member))
    simpa using this
  obtain ⟨i, left, j, right, apart, same⟩ :=
    Finset.exists_ne_map_eq_of_card_lt_of_maps_to (by simp) places
  rw [Finset.mem_range] at left right
  rcases Nat.lt_or_gt_of_ne apart with before | before
  · exact ⟨way i, same ▸ ahead i j before (by omega)⟩
  · exact ⟨way j, same ▸ ahead j i before (by omega)⟩

theorem Defaults.lt {v : Nat} (d : g.Defaults id v) : id < g.size := by
  obtain ⟨k, owned, -⟩ := d
  exact owned.isMapping.lt

/-- Looking for the text of a node ends with one, with a report, or after so many default values. -/
theorem Keeps.ends_scalarText (keeps : g.Keeps h) (n id : Nat) :
    Ends (g.Spells id) (fun f => (∃ r, f = .report r) ∨
      f = .endless ∧ ∃ way : Nat → Nat, way 0 = id ∧ ∀ k < n, g.Defaults (way k) (way (k + 1)))
      (Construction.scalarText h n id) := by
  induction n generalizing id with
  | zero => exact .inr ⟨rfl, fun _ => id, rfl, fun k before => absurd before (Nat.not_lt_zero k)⟩
  | succ n ih =>
    unfold Construction.scalarText
    split
    next text isScalar => exact .own (keeps.content_eq isScalar (by simp))
    next pairs isMapping =>
      split
      next k v found =>
        have default : g.Defaults id v := by
          have tag := List.find?_some found
          refine ⟨k, keeps.pairs id (k, v) ?_, keeps.tag_eq (beq_iff_eq.mp tag) (by simp)⟩
          rw [pairs_of_content isMapping]
          exact List.mem_of_find?_eq_some found
        refine (ih v).mono (fun text spelled => .default default spelled) ?_
        rintro f (report | ⟨rfl, way, start, steps⟩)
        · exact .inl report
        · -- The way from here begins with the step to the value.
          refine .inr ⟨rfl, fun k => k.casesOn id way, rfl, fun k before => ?_⟩
          cases k with
          | zero =>
            change g.Defaults id (way 0)
            rwa [start]
          | succ k => exact steps k (by omega)
      next => exact .inl ⟨_, rfl⟩
    next => exact .inl ⟨_, rfl⟩

/-- A node with the tag of a scalar has a value that it can have, or something is wrong with it. -/
theorem Keeps.ends_scalarValue (keeps : g.Keeps h) (id : Nat) :
    Ends (g.Reads id) g.DataFault (Construction.scalarValue h id) := by
  simp only [Construction.scalarValue, keeps.start, keeps.size]
  split
  next => exact .report _
  next read reader =>
    refine ((keeps.ends_scalarText (g.size + 1) id).mono (fun _ spelled => spelled) ?_).bind ?_
    · rintro f (⟨r, rfl⟩ | ⟨rfl, way, -, steps⟩)
      · exact .report r
      · obtain ⟨x, loop⟩ := exists_circle (R := g.Defaults) (fun _ _ => Defaults.lt) fun k most =>
          steps k (Nat.lt_succ_of_le most)
        exact .endless loop
    · intro text spelled
      split
      next tag isMapping =>
        refine .timestampCollection (keeps.tag_eq tag (by simp)) ?_
        exact keeps.isMapping_iff.mp ⟨_, isMapping⟩
      next =>
        -- Only the tag of a default key may have changed, and then any text can be read.
        rcases keeps.tag id with same | ⟨default, plain⟩
        · cases result : read text with
          | ok v => exact .read ⟨read, text, same ▸ reader, spelled, result⟩
          | error f => exact .unread ⟨read, text, same ▸ reader, spelled, result⟩
        · rw [plain] at reader
          obtain rfl := Option.some.inj reader
          exact .default default spelled

end Graph

namespace Construction

open Yaml.Graph

variable {g h : Graph} {c : Construction} {id : Nat}

/-- The construction goes on from the graph, and scalars have values that they can have. -/
structure Faithful (g : Graph) (c : Construction) : Prop where
  graph : g.Keeps c.graph
  scalar : ∀ id v, c.made? id = some (.scalar v) → g.Reads id v

/-- The construction stays faithful, or something is wrong with the data. -/
abbrev Stands (g : Graph) : Reading Construction → Prop := Ends (Faithful g) g.DataFault

theorem made?_of_key? {v : Value} (h : c.key? id = some v) : c.made? id = some (.scalar v) := by
  unfold key? at h
  split at h
  next here => exact Option.some.inj h ▸ here
  next => cases h

theorem Faithful.setCell (faithful : Faithful g c) {cell : Cell} (graph : g.Keeps h)
    (scalar : ∀ v, cell = .scalar v → g.Reads id v) (pending : List Nat) :
    Faithful g ⟨h, c.cells.setIfInBounds id (some cell), pending⟩ := by
  refine ⟨graph, forall_made?_set (P := fun other made => ∀ v, made = some (.scalar v) →
    g.Reads other v) faithful.scalar ?_ _ _⟩
  exact fun v same => scalar v (Option.some.inj same)

/-- Data that is no scalar's is set. -/
theorem Faithful.setCollection (faithful : Faithful g c) {cell : Cell} (graph : g.Keeps h)
    (collection : ∀ v, cell ≠ .scalar v) (pending : List Nat) :
    Faithful g ⟨h, c.cells.setIfInBounds id (some cell), pending⟩ :=
  faithful.setCell graph (fun v same => absurd same (collection v)) pending

theorem Faithful.visit (faithful : Faithful g c) (id : Nat) : Stands g (c.visit id) := by
  unfold Construction.visit
  refine Ends.ite (fun _ => faithful) fun _ => ?_
  split
  next cell empty =>
    refine faithful.setCollection faithful.graph (fun v same => ?_) _
    subst same
    unfold emptyCell? at empty
    split at empty <;> simp at empty
  next =>
    refine (faithful.graph.ends_scalarValue id).bind fun v reads => ?_
    exact faithful.setCell faithful.graph (fun w same => (Cell.scalar.inj same) ▸ reads) _

theorem Faithful.checkKeys {m : Mark} {seen : List Value} {pairs : List (Nat × Nat)}
    (faithful : Faithful g c) (owned : ∀ p ∈ pairs, g.Owns id p)
    (before : ∀ v ∈ seen, ∃ p, g.Owns id p ∧ g.Reads p.1 v) :
    Stands g (checkKeys m seen pairs c) := by
  induction pairs generalizing seen c with
  | nil => exact faithful
  | cons p pairs ih =>
    obtain ⟨here, later⟩ := List.forall_mem_cons.mp owned
    unfold Construction.checkKeys
    refine Ends.ite (fun _ => ih faithful later before) fun _ => ?_
    refine (faithful.visit p.1).bind fun c' faithful' => ?_
    split
    next => exact ih faithful' later before
    next key found =>
      have reads := faithful'.scalar p.1 key (made?_of_key? found)
      refine Ends.ite (fun repeated => ?_) fun _ => ?_
      · obtain ⟨v, member, same⟩ := List.any_eq_true.mp repeated
        obtain ⟨q, owns, readsBefore⟩ := before v member
        split
        next => exact .report _
        next long => exact .longKey owns here readsBefore reads same long
      · exact ih faithful' later (List.forall_mem_cons.mpr ⟨⟨p, here, reads⟩, before⟩)

theorem ends_notMapping {α : Type} (good : α → Prop) (keeps : g.Keeps h)
    (tag : h.tag id = .map ∨ h.tag id = .set) :
    Ends good g.DataFault (notMapping h id) := by
  have tag : g.tag id = .map ∨ g.tag id = .set :=
    tag.imp (keeps.tag_eq · (by simp)) (keeps.tag_eq · (by simp))
  unfold notMapping
  dsimp only
  split
  next item rest isSequence =>
    change g.DataFault (.itemAsPair (h.content item).nodeName)
    rw [keeps.nodeName]
    exact .itemAsPair tag (keeps.content_eq isSequence (by simp))
  next text isScalar =>
    refine Ends.ite (fun _ => .report _) fun some => ?_
    exact .charactersAsPairs tag (keeps.content_eq isScalar (by simp)) (by simpa using some)
  next => exact .report _

theorem Faithful.entries {m : Mark} {es : List (Value × Nat)} {pairs : List (Nat × Nat)}
    (faithful : Faithful g c) :
    Ends (fun r => Faithful g r.2) g.DataFault (entries m es pairs c) := by
  induction pairs generalizing es c with
  | nil => exact faithful
  | cons p pairs ih =>
    refine (faithful.visit p.1).bind fun c' faithful' => ?_
    split
    next => exact .report _
    next key _ => exact (faithful'.visit p.2).bind fun c'' faithful'' => ih faithful''

theorem Faithful.mappingEntries (faithful : Faithful g c)
    (tag : c.graph.tag id = .map ∨ c.graph.tag id = .set) :
    Ends (fun r => Faithful g r.2) g.DataFault (c.mappingEntries id) := by
  unfold Construction.mappingEntries
  split
  next pairs isMapping =>
    have owned := faithful.graph.pairs id
    rw [pairs_of_content isMapping] at owned
    refine (faithful.checkKeys owned (List.forall_mem_nil _)).bind fun c' faithful' => ?_
    have mapping : c'.graph.IsMapping id :=
      faithful'.graph.isMapping_iff.mpr (faithful.graph.isMapping_iff.mp ⟨pairs, isMapping⟩)
    have flattened : Ends g.Keeps g.DataFault
        (flatten (mergeCount c'.graph + 1) [] id c'.graph) := by
      refine (faithful'.graph.flatten mapping (List.forall_mem_nil _)).mono (fun _ kept => kept) ?_
      rintro _ ⟨r, rfl⟩
      exact .report r
    exact flattened.bind fun graph kept => Faithful.entries ⟨kept, faithful'.scalar⟩
  next => exact ends_notMapping _ faithful.graph tag

theorem Faithful.pairItems {context : String} {m : Mark} {items : List Nat}
    (faithful : Faithful g c) :
    Ends (fun r => Faithful g r.2) g.DataFault (pairItems context m items c) := by
  induction items generalizing c with
  | nil => exact faithful
  | cons item items ih =>
    unfold Construction.pairItems
    split
    next k v _ =>
      refine (faithful.visit k).bind fun c' faithful' => ?_
      refine (faithful'.visit v).bind fun c'' faithful'' => ?_
      exact (ih faithful'').bind fun r rest => rest
    next => exact .report _
    next => exact .report _

theorem Faithful.fill (faithful : Faithful g c) (id : Nat) : Stands g (c.fill id) := by
  -- What a collection is filled with is no scalar.
  have filled (cell : Cell) {c' : Construction} (faithful' : Faithful g c')
      (collection : ∀ v, cell ≠ .scalar v) :
      Faithful g { c' with cells := c'.cells.setIfInBounds id (some cell) } :=
    faithful'.setCollection faithful'.graph collection _
  unfold Construction.fill
  dsimp only
  split
  next tag =>
    refine (faithful.mappingEntries (.inl tag)).bind fun r faithful' => ?_
    exact filled (.map r.1) faithful' (by simp)
  next tag =>
    refine (faithful.mappingEntries (.inr tag)).bind fun r faithful' => ?_
    exact filled (.set (r.1.map Prod.fst)) faithful' (by simp)
  next items _ _ =>
    refine (Ends.foldlM faithful fun c' item _ faithful' => faithful'.visit item).bind
      fun c' faithful' => ?_
    exact filled (.list items) faithful' (by simp)
  next => exact .report _
  next =>
    refine faithful.pairItems.bind fun r faithful' => ?_
    exact filled (.pairs r.1) faithful' (by simp)
  next => exact .report _

theorem Faithful.fillAll (faithful : Faithful g c) (n : Nat) : Stands g (fillAll n c) := by
  induction n generalizing c with
  | zero => exact faithful
  | succ n ih =>
    unfold Construction.fillAll
    split
    next => exact faithful
    next id rest _ =>
      have popped : Faithful g { c with pending := rest } := ⟨faithful.graph, faithful.scalar⟩
      exact (popped.fill id).bind fun c' faithful' => ih faithful'

end Construction

/-- Whatever is wrong with the data of a graph has its cause there. -/
theorem Document.dataFault_of_ofGraph {g : Graph} {f : Fault} (h : ofGraph g = .error f) :
    g.DataFault f := by
  have start : Construction.Faithful g { graph := g, cells := Array.replicate g.size none } := by
    refine ⟨.refl g, fun id v found => ?_⟩
    rw [Construction.made?_start] at found
    cases found
  have made : Ends (fun _ => True) g.DataFault (ofGraph g) := by
    unfold ofGraph
    refine Ends.ite (fun _ => trivial) fun _ => ?_
    exact (start.visit 0).bind fun c faithful => (faithful.fillAll _).bind fun _ _ => trivial
  rwa [h] at made

/-- Whatever stops the reading of a document is wrong with its text or with its data. -/
theorem Document.fault_of_ofText {text : List Char} {f : Fault} (h : ofText text = .error f) :
    TextFault text f ∨ ∃ g, Graph.ofText text = .ok g ∧ g.DataFault f := by
  rcases bind_eq_error.mp h with refused | ⟨g, read, failed⟩
  · exact .inl (Graph.textFault_of_ofText refused)
  · exact .inr ⟨g, read, dataFault_of_ofGraph failed⟩

end JobMatrix.Yaml
