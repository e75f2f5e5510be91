import JobMatrix.Proofs.Form.Steps

set_option autoImplicit false

/-!
What declared axes are made into. Each value is turned into a text in its place, or the first value
that cannot be turned into one is complained about, and an axis that has no elements at all is
complained about as a whole.
-/

namespace JobMatrix

namespace Value

/-- A value that can stand in a cell: a scalar, and no integer too long to print. -/
structure IsCell (v : Value) : Prop where
  scalar : v.isScalar = true
  printable : v.Printable

/-- The text of a value in a cell. -/
def cellText (v : Value) : Text := v.scalarText?.getD []

/-- The elements of what is declared as a list. -/
def listed? : Value → Option (List Value)
  | .list items | .tuple items => some items
  | _ => none

/-- What has elements but is no list of them: a set, or a mapping with its keys. -/
def Unlisted : Value → Prop
  | .set _ | .map _ => True
  | _ => False

theorem elements?_of_listed? {v : Value} {items : List Value} (listed : v.listed? = some items) :
    v.elements? = some items := by
  cases v <;> simp_all [listed?, elements?]

theorem elements?_eq_listed? {v : Value} (plain : ¬ v.Unlisted) : v.elements? = v.listed? := by
  cases v <;> simp_all [listed?, elements?, Unlisted]

end Value

namespace Matrix

variable {job axis v values : Value} {items : List Value} {pairs : List (Value × Value)}

/-- What a complaint about a value calls the job: nothing, when the name of the job is none. -/
def owner (job : Value) : Value := if job.isPresent then job else .text []

theorem cell_eq_cellText (fits : v.IsCell) : cell job axis v = .ok v.cellText := by
  obtain ⟨s, shown⟩ := Option.isSome_iff_exists.mp fits.printable
  rw [cell, if_pos fits.scalar, Value.cellText, shown]
  rfl

theorem cell_of_not_scalar (unfit : v.isScalar = false) :
    cell job axis v = .error (.invalid ⟨.cellNotScalar v.kindName, job, axis⟩) := by
  simp [cell, unfit]

theorem cell_of_ok {t : Text} (made : cell job axis v = .ok t) : v.IsCell := by
  unfold cell at made
  split at made
  next scalar =>
    split at made
    next s shown => exact ⟨scalar, by simp [Value.Printable, shown]⟩
    next => cases made
  next => cases made

/-- The value is a list of cells, in one way or another. -/
def Lists (elements : Value → Option (List Value)) (values : Value) : Prop :=
  ∃ items, elements values = some items ∧ ∀ v ∈ items, v.IsCell

theorem axisOf_of_elements (has : values.elements? = some items) (fit : ∀ v ∈ items, v.IsCell) :
    axisOf job axis values = .ok (axis, items.map Value.cellText) := by
  have each : items.mapM (cell (owner job) axis) = .ok (items.map Value.cellText) := by
    rw [mapM_eq_ok, List.forall₂_map_right_iff, List.forall₂_same]
    intro v member
    exact cell_eq_cellText (fit v member)
  unfold axisOf
  rw [has]
  change (items.mapM (cell (owner job) axis) >>= fun texts => pure (axis, texts)) = _
  rw [each]
  rfl

theorem lists_of_axisOf {a : Value × List Text} (made : axisOf job axis values = .ok a) :
    Lists Value.elements? values := by
  unfold axisOf at made
  split at made
  next => cases made
  next items has =>
    obtain ⟨texts, each, -⟩ := bind_eq_ok.mp made
    refine ⟨items, has, fun v member => ?_⟩
    obtain ⟨t, -, shown⟩ := exists_mem_right_of_forall₂ (mapM_eq_ok.mp each) member
    exact cell_of_ok shown

/-- An axis fails as the first of its values that is no cell. -/
theorem axisOf_of_first {before after : List Value} (has : values.elements? = some (before ++ v :: after))
    (fit : ∀ u ∈ before, u.IsCell) (unfit : v.isScalar = false) : axisOf job axis values =
      .error (.invalid ⟨.cellNotScalar v.kindName, owner job, axis⟩) := by
  have first : (before ++ v :: after).mapM (cell (owner job) axis) =
      .error (.invalid ⟨.cellNotScalar v.kindName, owner job, axis⟩) := by
    apply mapM_eq_error_of_first
    · intro u member
      exact ⟨_, cell_eq_cellText (fit u member)⟩
    · exact cell_of_not_scalar unfit
  unfold axisOf
  rw [has]
  change ((before ++ v :: after).mapM (cell (owner job) axis) >>= fun texts => pure (axis, texts)) = _
  rw [first]
  rfl

theorem axisOf_of_no_elements (none : values.elements? = none) :
    axisOf job axis values = .error (.invalid ⟨.axisNotList, job, axis⟩) := by
  rw [axisOf, none]

/-- A matrix is made when every axis has cells only. -/
theorem exists_ofPairs_iff :
    (∃ m, ofPairs job pairs = .ok m) ↔ ∀ p ∈ pairs, Lists Value.elements? p.2 := by
  constructor
  · intro made p member
    obtain ⟨m, made⟩ := made
    obtain ⟨axes, each, -⟩ := bind_eq_ok.mp made
    obtain ⟨a, -, made⟩ := exists_mem_right_of_forall₂ (mapM_eq_ok.mp each) member
    exact lists_of_axisOf made
  · intro fit
    have each : ∀ p ∈ pairs, ∃ a, axisOf job p.1 p.2 = .ok a := by
      intro p member
      obtain ⟨items, has, cells⟩ := fit p member
      exact ⟨_, axisOf_of_elements has cells⟩
    obtain ⟨axes, made⟩ := exists_mapM_eq_ok each
    exact ⟨⟨axes⟩, bind_eq_ok.mpr ⟨axes, made, rfl⟩⟩

/-- A matrix fails as the first of its axes that does not have cells only. -/
theorem ofPairs_of_first {before after : List (Value × Value)} {f : Failure}
    (fit : ∀ p ∈ before, Lists Value.elements? p.2) (failed : axisOf job axis values = .error f) :
    ofPairs job (before ++ (axis, values) :: after) = .error f := by
  have first : (before ++ (axis, values) :: after).mapM (fun p => axisOf job p.1 p.2) = .error f := by
    apply mapM_eq_error_of_first
    · intro p member
      obtain ⟨items, has, cells⟩ := fit p member
      exact ⟨_, axisOf_of_elements has cells⟩
    · exact failed
  rw [ofPairs, first, error_bind]

/-- The axes of a matrix are the declared ones, with the elements as texts. -/
theorem axes_of_ofPairs {m : Matrix} (made : ofPairs job pairs = .ok m) :
    List.Forall₂ (fun p a => a.1 = p.1 ∧ ∃ items, p.2.elements? = some items ∧
      (∀ v ∈ items, v.IsCell) ∧ a.2 = items.map Value.cellText) pairs m.axes := by
  obtain ⟨axes, each, made⟩ := bind_eq_ok.mp made
  obtain rfl := pure_eq_ok.mp made
  apply (mapM_eq_ok.mp each).imp
  intro p a madeAxis
  obtain ⟨items, has, cells⟩ := lists_of_axisOf madeAxis
  rw [axisOf_of_elements has cells] at madeAxis
  obtain rfl := Except.ok.inj madeAxis
  exact ⟨rfl, items, has, cells, rfl⟩

end Matrix

end JobMatrix
