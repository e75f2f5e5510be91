import JobMatrix.Proofs.Form.Jobs
import JobMatrix.Proofs.Form.Shape
import JobMatrix.Proofs.Matrix.Conversion

set_option autoImplicit false

/-!
Axes are declared as lists. Where no axis is declared as a set or as a mapping, whose members or keys
would be taken for its values, a matrix is made of lists of scalars only, and so are the axes of all
jobs of a document.
-/

namespace JobMatrix

namespace Matrix

variable {job : Value} {pairs : List (Value × Value)}

theorem lists_elements?_iff {values : Value} (plain : ¬ values.Unlisted) :
    Lists Value.elements? values ↔ Lists Value.listed? values := by
  rw [Lists, Lists, Value.elements?_eq_listed? plain]

/-- Declared as lists, axes make a matrix exactly when their values can stand in cells. -/
theorem exists_ofPairs_listed_iff (plain : ∀ p ∈ pairs, ¬ p.2.Unlisted) :
    (∃ m, ofPairs job pairs = .ok m) ↔ ∀ p ∈ pairs, Lists Value.listed? p.2 := by
  rw [exists_ofPairs_iff]
  exact forall₂_congr fun p member => lists_elements?_iff (plain p member)

/-- What is no list is complained about when all axes before it can be made. -/
theorem ofPairs_of_not_listed {before later : List (Value × Value)} {axis values : Value}
    (fit : ∀ p ∈ before, Lists Value.listed? p.2) (none : values.listed? = none)
    (plain : ¬ values.Unlisted) : ofPairs job (before ++ (axis, values) :: later) =
      .error (.invalid ⟨.axisNotList, job, axis⟩) := by
  apply ofPairs_of_first
  · intro p member
    obtain ⟨items, listed, cells⟩ := fit p member
    exact ⟨items, Value.elements?_of_listed? listed, cells⟩
  · apply axisOf_of_no_elements
    rw [Value.elements?_eq_listed? plain, none]

end Matrix

/-- The axis has the name of the declared one, and its values are the elements of the list that is
declared. -/
structure Axis.TakenFrom (declared : Text × Value) (a : Axis) : Prop where
  named : a.name = declared.1
  listed : ∃ items, declared.2.listed? = some items ∧ a.values = items.map Value.cellText

/-- No axis is declared as a set or as a mapping. -/
def JobForm.DeclaresLists (form : JobForm) : Prop :=
  ∀ axes ∈ form.strategy.bind StrategyForm.matrix, ∀ a ∈ axes, ¬ a.2.Unlisted

theorem JobForm.ofPairs_of_matrix {path name : Text} {axes : Entries Value} {m : Matrix}
    (made : matrix path name axes = .ok m) :
    Matrix.ofPairs (.text name) (axes.map fun a => (.text a.1, a.2)) = .ok m := by
  unfold matrix at made
  split at made
  next => exact made
  next => cases made

/-- Each axis of a job is one that its form declares as a list. -/
theorem JobForm.Made.axes {form : JobForm} {path name : Text} {known : List Text} {j : Job}
    (made : form.Made path name known j) (plain : form.DeclaresLists) :
    List.Forall₂ Axis.TakenFrom ((form.strategy.bind StrategyForm.matrix).getD []) j.axes := by
  have checked := made.matrix
  cases given : form.strategy.bind StrategyForm.matrix with
  | none =>
    rw [given] at checked
    have same := pure_eq_ok.mp checked
    have without : j.matrix = none := Option.map_eq_none_iff.mp same.symm
    rw [Job.axes, without]
    exact .nil
  | some axes =>
    rw [given, Option.mapM_some] at checked
    obtain ⟨m, madeMatrix, kept⟩ := map_eq_ok.mp checked
    obtain ⟨taken, has, rfl⟩ := Option.map_eq_some_iff.mp kept.symm
    have each := Matrix.axes_of_ofPairs (ofPairs_of_matrix madeMatrix)
    rw [Matrix.ofAxes, List.forall₂_map_left_iff, List.forall₂_map_right_iff] at each
    rw [Job.axes, has]
    apply ((List.forall₂_and_left _ _).mpr ⟨plain axes given, each⟩).imp
    intro a b here
    obtain ⟨plainAxis, name, items, has, -, values⟩ := here
    rw [Value.elements?_eq_listed? plainAxis] at has
    exact ⟨Value.text.inj name, items, has, values⟩

/-- A matrix is made exactly when every axis is declared as a list of scalars that can be printed, and
an axis that is declared as something else is complained about when it is the first that stands in the
way. So the axes of a document are those that it declares as lists. All this is so where axes are not
declared as sets or as mappings. -/
theorem Load.axes_are_lists (job : Value) (pairs : List (Value × Value)) (settings : Settings)
    (t : FileTree) (path : Path) (extra : List Text) :
    ((∀ p ∈ pairs, ¬ p.2.Unlisted) → ((∃ m, Matrix.ofPairs job pairs = .ok m) ↔
      ∀ p ∈ pairs, Matrix.Lists Value.listed? p.2)) ∧
      (∀ before axis values later, pairs = before ++ (axis, values) :: later →
        (∀ p ∈ before, Matrix.Lists Value.listed? p.2) → values.listed? = none → ¬ values.Unlisted →
        Matrix.ofPairs job pairs = .error (.invalid ⟨.axisNotList, job, axis⟩)) ∧
      ∀ w, document settings t path extra = .ok w → ∃ full bytes form,
        path.expandHome t.homes = .ok full ∧ t.lookup full = .ok (some (.file bytes)) ∧
          readForm full.text bytes = .ok form ∧ ((∀ f ∈ form.jobs, f.2.DeclaresLists) →
            List.Forall₂ (fun f j => List.Forall₂ Axis.TakenFrom
              ((f.2.strategy.bind StrategyForm.matrix).getD []) j.axes) form.jobs w.jobs) := by
  refine ⟨Matrix.exists_ofPairs_listed_iff, ?_, ?_⟩
  · intro before axis values later here fit none plain
    rw [here]
    exact Matrix.ofPairs_of_not_listed fit none plain
  · intro w loaded
    obtain ⟨full, bytes, form, expanded, found, read, made⟩ := document_eq_ok loaded
    refine ⟨full, bytes, form, expanded, found, read, fun plain => ?_⟩
    obtain ⟨each, -⟩ := WorkflowForm.workflow_eq_ok.mp made
    apply ((List.forall₂_and_left _ _).mpr ⟨plain, each⟩).imp
    intro f j here
    exact here.2.axes here.1

instance : DecidablePred Value.Unlisted
  | .set _ | .map _ => .isTrue trivial
  | .null | .bool _ | .int _ | .float _ | .text _ | .bytes _ | .date _ | .timestamp _ | .list _
  | .tuple _ | .again _ => .isFalse id

instance (form : JobForm) : Decidable form.DeclaresLists :=
  decidable_of_iff (∀ axes ∈ (form.strategy.bind StrategyForm.matrix).toList, ∀ a ∈ axes, ¬ a.2.Unlisted)
    (by simp [JobForm.DeclaresLists])

/-- A document with one axis. -/
def Load.listing : List UInt8 :=
  ("jobs: \x7bt: \x7bruns-on: linux, strategy: \x7bmatrix: \x7bos: [linux, true]\x7d\x7d, "
    ++ "steps: [\x7brun: make\x7d]\x7d\x7d").toList.map fun c => UInt8.ofNat c.toNat

theorem Load.listing_passes :
    (readForm "w.yml" listing).toOption.any (fun form =>
      decide (∀ f ∈ form.jobs, f.2.DeclaresLists) &&
        (form.workflow {} "w.yml" "w" []).toOption.any fun w =>
          decide (w.jobs.map Job.axes = [[⟨"os", ["linux", "true"]⟩]])) = true := by
  decide +kernel

/-- A tuple is taken as a list, a text is complained about, and a document has the axis it declares. -/
theorem Load.listing_axes_are_lists :
    (∃ m, Matrix.ofPairs .null [(.text "a", .tuple [.text "x"])] = .ok m) ∧
      Matrix.ofPairs .null [(.text "a", .tuple [.text "x"]), (.text "b", .text "y")] =
        .error (.invalid ⟨.axisNotList, .null, .text "b"⟩) ∧
      ∃ w form, document {} (onlyFile listing) (.ofText "w.yml") [] = .ok w ∧
        readForm "w.yml" listing = .ok form ∧
        w.jobs.map Job.axes = [[⟨"os", ["linux", "true"]⟩]] ∧
        List.Forall₂ (fun f j => List.Forall₂ Axis.TakenFrom
          ((f.2.strategy.bind StrategyForm.matrix).getD []) j.axes) form.jobs w.jobs := by
  have cells : Matrix.Lists Value.listed? (.tuple [.text "x"]) := by
    refine ⟨_, rfl, ?_⟩
    rw [List.forall_mem_singleton]
    exact ⟨rfl, by decide⟩
  refine ⟨?_, ?_, ?_⟩
  · obtain ⟨made, -, -⟩ := axes_are_lists .null [(.text "a", .tuple [.text "x"])] {} {} {} []
    apply (made ?_).mpr
    · simpa using cells
    · simp [Value.Unlisted]
  · obtain ⟨-, refused, -⟩ := axes_are_lists .null
      [(.text "a", .tuple [.text "x"]), (.text "b", .text "y")] {} {} {} []
    apply refused [(.text "a", .tuple [.text "x"])] _ _ [] rfl
    · simpa using cells
    · rfl
    · simp [Value.Unlisted]
  · obtain ⟨form, shaped, checked⟩ := exists_of_any listing_passes
    obtain ⟨plain, checked⟩ := Bool.and_eq_true_iff.mp checked
    obtain ⟨w, made, axes⟩ := exists_of_any checked
    have loaded := (document_onlyFile shaped {} []).trans made
    obtain ⟨-, -, taken⟩ :=
      axes_are_lists .null [] {} (onlyFile listing) (.ofText "w.yml") []
    obtain ⟨full, bytes, form', expanded, found, read, each⟩ := taken w loaded
    -- The file is the only one there is.
    obtain rfl : Path.ofText "w.yml" = full := Except.ok.inj expanded
    obtain rfl : listing = bytes := by
      have same := (lookup_onlyFile listing).symm.trans found
      exact FileEntry.file.inj (Option.some.inj (Except.ok.inj same))
    rw [text_onlyFile, shaped] at read
    obtain rfl := Except.ok.inj read
    exact ⟨w, form, loaded, shaped, of_decide_eq_true axes, each (of_decide_eq_true plain)⟩

/-- A mapping is taken for its keys, though it is no list. -/
theorem Matrix.mapping_is_taken :
    Value.listed? (.map [(.text "linux", .int 1)]) = none ∧
      ofPairs .null [(.text "os", .map [(.text "linux", .int 1)])] =
        .ok ⟨[(.text "os", ["linux"])]⟩ :=
  ⟨rfl, rfl⟩

end JobMatrix
