import Mathlib.Data.List.Induction
import JobMatrix.Proofs.Construction
import JobMatrix.Proofs.Matrix.Conversion

set_option autoImplicit false

/-!
Which matrices a declared job can have. Values are looked at before anything else of the job, axis by
axis, and the axes after the name, the environment and the steps. Each of the two passes stops at the
first offender, which its complaint names.
-/

namespace JobMatrix

namespace Matrix

variable {α : Type} {job : Value} {seen : List Text}

/-- Axes that are declared by lists. -/
def declared (axes : List (Value × List Value)) : List (Value × Value) :=
  axes.map fun a => (a.1, .list a.2)

/-- Declared axes with the texts of their values. -/
def texts (axes : List (Value × List Value)) : List (Value × List Text) :=
  axes.map fun a => (a.1, a.2.map Value.cellText)

/-- All values of all axes can stand in cells. -/
def Fits (axes : List (Value × List Value)) : Prop := ∀ a ∈ axes, ∀ v ∈ a.2, v.IsCell

/-- Axes as a job can have them: with names that are texts of more than blanks and different from each
other, and none without values. -/
structure Regular (axes : List (Value × List α)) : Prop where
  named : ∀ a ∈ axes, ∃ name, a.1 = .text name ∧ Text.isBlankText name = false
  distinct : (axes.map Prod.fst).Nodup
  inhabited : ∀ a ∈ axes, a.2 ≠ []

/-- What keeps an axis from standing behind others, and the name by which it is complained about. -/
inductive AxisFault (earlier : List Value) : Value × List α → Complaint → Value → Prop where
  | unnamed {s : Text} {values : List α} (blank : Text.isBlankText s = true) :
      AxisFault earlier (.text s, values) .axisUnnamed (.text s)
  | noText {name : Value} {shown : Text} {values : List α} (other : ∀ s, name ≠ .text s)
      (prints : name.plain? = some shown) : AxisFault earlier (name, values) .axisUnnamed (.text shown)
  | repeated {s : Text} {values : List α} (named : Text.isBlankText s = false)
      (before : .text s ∈ earlier) : AxisFault earlier (.text s, values) .axisRepeated (.text s)
  | empty {s : Text} (named : Text.isBlankText s = false) (new : .text s ∉ earlier) :
      AxisFault earlier (.text s, []) .axisEmpty (.text s)

/-- A list that does not have a property throughout has a first element without it. -/
theorem exists_first {P : α → Prop} {xs : List α} (lacks : ¬ ∀ x ∈ xs, P x) :
    ∃ before x after, xs = before ++ x :: after ∧ (∀ y ∈ before, P y) ∧ ¬ P x := by
  induction xs with
  | nil => simp at lacks
  | cons x xs ih =>
    by_cases has : P x
    · have later : ¬ ∀ y ∈ xs, P y := by
        intro all
        exact lacks (List.forall_mem_cons.mpr ⟨has, all⟩)
      obtain ⟨before, y, after, rfl, fine, without⟩ := ih later
      exact ⟨x :: before, y, after, rfl, List.forall_mem_cons.mpr ⟨has, fine⟩, without⟩
    · exact ⟨[], x, xs, rfl, by simp, has⟩

/-! ### Values -/

theorem exists_first_misfit {axes : List (Value × List Value)} (misfit : ¬ Fits axes) :
    ∃ before axis front v rest later, axes = before ++ (axis, front ++ v :: rest) :: later ∧
      Fits before ∧ (∀ u ∈ front, u.IsCell) ∧ ¬ v.IsCell := by
  obtain ⟨before, a, later, rfl, fits, unfit⟩ := exists_first misfit
  obtain ⟨axis, values⟩ := a
  obtain ⟨front, v, rest, rfl, fit, unfit⟩ := exists_first unfit
  exact ⟨before, axis, front, v, rest, later, rfl, fits, fit, unfit⟩

theorem lists_declared {axes : List (Value × List Value)} (fits : Fits axes) :
    ∀ p ∈ declared axes, Lists Value.elements? p.2 := by
  intro p member
  obtain ⟨a, inAxes, rfl⟩ := List.mem_map.mp member
  exact ⟨a.2, rfl, fits a inAxes⟩

theorem exists_ofPairs_declared_iff {axes : List (Value × List Value)} :
    (∃ m, ofPairs job (declared axes) = .ok m) ↔ Fits axes := by
  rw [exists_ofPairs_iff]
  constructor
  · intro lists a member v inAxis
    obtain ⟨items, has, cells⟩ := lists _ (List.mem_map_of_mem member)
    obtain rfl := Option.some.inj has
    exact cells v inAxis
  · exact lists_declared

theorem ofPairs_declared {axes : List (Value × List Value)} (fits : Fits axes) :
    ofPairs job (declared axes) = .ok ⟨texts axes⟩ := by
  obtain ⟨m, made⟩ : ∃ m, ofPairs job (declared axes) = .ok m := exists_ofPairs_declared_iff.mpr fits
  have same : texts axes = m.axes := by
    rw [texts, ← List.forall₂_eq_eq_eq, List.forall₂_map_left_iff]
    have each := axes_of_ofPairs made
    rw [declared, List.forall₂_map_left_iff] at each
    apply each.imp
    intro a b here
    obtain ⟨name, items, has, -, values⟩ := here
    obtain rfl := Option.some.inj has
    exact Prod.ext name.symm values.symm
  rw [made, same]

/-- The first value that is no scalar is complained about, with its axis. -/
theorem ofPairs_of_not_scalar {before later : List (Value × List Value)} {axis v : Value}
    {front rest : List Value} (fits : Fits before) (fit : ∀ u ∈ front, u.IsCell)
    (unfit : v.isScalar = false) :
    ofPairs job (declared (before ++ (axis, front ++ v :: rest) :: later)) =
      .error (.invalid ⟨.cellNotScalar v.kindName, owner job, axis⟩) := by
  rw [declared, List.map_append, List.map_cons]
  apply ofPairs_of_first (lists_declared fits)
  exact axisOf_of_first rfl fit unfit

/-! ### Axes -/

theorem regular_texts {axes : List (Value × List Value)} :
    Regular (texts axes) ↔ Regular axes := by
  have names : (texts axes).map Prod.fst = axes.map Prod.fst := by
    rw [texts, List.map_map]
    rfl
  constructor
  · intro regular
    refine ⟨fun a member => ?_, names ▸ regular.distinct, fun a member => ?_⟩
    · exact regular.named _ (List.mem_map_of_mem member)
    · intro empty
      apply regular.inhabited _ (List.mem_map_of_mem member)
      rw [empty]
      rfl
  · intro regular
    refine ⟨fun b member => ?_, names.symm ▸ regular.distinct, fun b member => ?_⟩
    · obtain ⟨a, inAxes, rfl⟩ := List.mem_map.mp member
      exact regular.named a inAxes
    · obtain ⟨a, inAxes, rfl⟩ := List.mem_map.mp member
      simpa using regular.inhabited a inAxes

theorem regular_snoc {axes : List (Value × List α)} {a : Value × List α} :
    Regular (axes ++ [a]) ↔ Regular axes ∧
      (∃ name, a.1 = .text name ∧ Text.isBlankText name = false) ∧ a.1 ∉ axes.map Prod.fst ∧
        a.2 ≠ [] := by
  have distinct : ((axes ++ [a]).map Prod.fst).Nodup ↔
      a.1 ∉ axes.map Prod.fst ∧ (axes.map Prod.fst).Nodup := by
    rw [List.map_append, List.map_singleton, ← List.concat_eq_append, List.nodup_concat]
  constructor
  · intro regular
    obtain ⟨named, inhabited⟩ := And.intro regular.named regular.inhabited
    rw [List.forall_mem_append, List.forall_mem_singleton] at named inhabited
    obtain ⟨new, before⟩ := distinct.mp regular.distinct
    exact ⟨⟨named.1, before, inhabited.1⟩, named.2, new, inhabited.2⟩
  · intro both
    obtain ⟨regular, named, new, inhabited⟩ := both
    refine ⟨?_, distinct.mpr ⟨new, regular.distinct⟩, ?_⟩
    · exact List.forall_mem_append.mpr ⟨regular.named, List.forall_mem_singleton.mpr named⟩
    · exact List.forall_mem_append.mpr ⟨regular.inhabited, List.forall_mem_singleton.mpr inhabited⟩

/-- What cannot stand behind axes that a job can have has a fault, if its name can be printed. -/
theorem exists_axisFault {axes : List (Value × List α)} {a : Value × List α} (regular : Regular axes)
    (irregular : ¬ Regular (axes ++ [a])) (shown : a.1.plain?.isSome = true) :
    ∃ c axis, AxisFault (axes.map Prod.fst) a c axis := by
  obtain ⟨axis, values⟩ := a
  by_cases isText : ∃ s, axis = .text s
  · obtain ⟨s, rfl⟩ := isText
    cases named : Text.isBlankText s with
    | true => exact ⟨_, _, .unnamed named⟩
    | false =>
      by_cases before : .text s ∈ axes.map Prod.fst
      · exact ⟨_, _, .repeated named before⟩
      · by_cases empty : values = []
        · rw [empty]
          exact ⟨_, _, .empty named before⟩
        · exact absurd (regular_snoc.mpr ⟨regular, ⟨s, rfl, named⟩, before, empty⟩) irregular
  · obtain ⟨text, prints⟩ := Option.isSome_iff_exists.mp shown
    exact ⟨_, _, .noText (not_exists.mp isText) prints⟩

/-- Axes that a job cannot have have a first among them that cannot stand behind the others. -/
theorem exists_first_irregular {axes : List (Value × List α)} (irregular : ¬ Regular axes) :
    ∃ before a later, axes = before ++ a :: later ∧ Regular before ∧ ¬ Regular (before ++ [a]) := by
  induction axes using List.reverseRecOn with
  | nil => exact absurd ⟨by simp, by simp, by simp⟩ irregular
  | append_singleton axes a ih =>
    by_cases regular : Regular axes
    · exact ⟨axes, a, [], rfl, regular, irregular⟩
    · obtain ⟨before, b, later, rfl, regular, fault⟩ := ih regular
      exact ⟨before, b, later ++ [a], by simp, regular, fault⟩

theorem exists_ofAxes {pairs : List (Value × List Text)}
    (named : ∀ a ∈ pairs, ∃ name, a.1 = .text name) : ∃ axes, pairs = (ofAxes axes).axes := by
  induction pairs with
  | nil => exact ⟨[], rfl⟩
  | cons a pairs ih =>
    obtain ⟨axis, values⟩ := a
    obtain ⟨⟨name, rfl⟩, later⟩ := List.forall_mem_cons.mp named
    obtain ⟨axes, rfl⟩ := ih later
    exact ⟨⟨name, values⟩ :: axes, rfl⟩

/-- The axes that a job can have are those that pass its checks. -/
theorem exists_ofAxes_iff {pairs : List (Value × List Text)} :
    (∃ axes, pairs = (ofAxes axes).axes ∧ Sound axes) ↔ Regular pairs := by
  have names (axes : List Axis) :
      (ofAxes axes).axes.map Prod.fst = (axes.map Axis.name).map Value.text := by
    simp [ofAxes]
  constructor
  · intro sound
    obtain ⟨axes, rfl, named, distinct, inhabited⟩ := sound
    refine ⟨fun p member => ?_, ?_, fun p member => ?_⟩
    · obtain ⟨a, inAxes, rfl⟩ := List.mem_map.mp member
      exact ⟨a.name, rfl, named a inAxes⟩
    · rw [names]
      exact distinct.map fun s t same => Value.text.inj same
    · obtain ⟨a, inAxes, rfl⟩ := List.mem_map.mp member
      exact inhabited a inAxes
  · intro regular
    have isText (a : Value × List Text) (member : a ∈ pairs) : ∃ name, a.1 = .text name := by
      obtain ⟨name, same, -⟩ := regular.named a member
      exact ⟨name, same⟩
    obtain ⟨axes, rfl⟩ := exists_ofAxes isText
    refine ⟨axes, rfl, fun a member => ?_, ?_, fun a member => ?_⟩
    · obtain ⟨name, same, named⟩ := regular.named _ (List.mem_map_of_mem member)
      rw [Value.text.inj same]
      exact named
    · have distinct := regular.distinct
      rw [names] at distinct
      exact distinct.of_map
    · exact regular.inhabited _ (List.mem_map_of_mem member)

theorem checkAxes_of_fault {a : Value × List Text} {c : Complaint} {shown : Value}
    {earlier : List Value} {later : List (Value × List Text)}
    (spelled : ∀ s, .text s ∈ earlier ↔ s ∈ seen) (fault : AxisFault earlier a c shown) :
    checkAxes job seen (a :: later) = .error (.invalid ⟨c, job, shown⟩) := by
  cases fault with
  | unnamed blank => simp [checkAxes, blank]
  | noText other prints =>
    unfold checkAxes
    split
    next s => exact absurd rfl (other s)
    next => rw [prints]
  | repeated named before => simp [checkAxes, named, (spelled _).mp before]
  | empty named new =>
    rw [spelled] at new
    simp [checkAxes, named, new]

/-- The checks of axes stop at the first that cannot stand behind those before it. -/
theorem checkAxes_of_first {before : List Axis} {a : Value × List Text} {c : Complaint} {shown : Value}
    {earlier : List Value} {later : List (Value × List Text)} (sound : Sound before)
    (fresh : ∀ b ∈ before, b.name ∉ seen)
    (spelled : ∀ s, .text s ∈ earlier ↔ s ∈ before.map Axis.name ∨ s ∈ seen)
    (fault : AxisFault earlier a c shown) :
    checkAxes job seen ((ofAxes before).axes ++ a :: later) = .error (.invalid ⟨c, job, shown⟩) := by
  induction before generalizing seen with
  | nil => exact checkAxes_of_fault (by simpa using spelled) fault
  | cons b before ih =>
    obtain ⟨named, other, inhabited, sound⟩ := sound_cons.mp sound
    obtain ⟨new, fresh⟩ := List.forall_mem_cons.mp fresh
    have stillFresh : ∀ d ∈ before, d.name ∉ b.name :: seen := by
      intro d member again
      exact (List.mem_cons.mp again).elim (other d member) (fresh d member)
    have rest := ih sound stillFresh (by simpa [or_assoc, or_left_comm] using spelled)
    change checkAxes job seen ((.text b.name, b.values) :: ((ofAxes before).axes ++ a :: later)) = _
    simp [checkAxes, named, new, inhabited, rest]

/-- The checks of a matrix stop at the first of its axes that it cannot have. -/
theorem check_of_first {before later : List (Value × List Value)} {a : Value × List Value}
    {c : Complaint} {shown : Value} (regular : Regular before)
    (fault : AxisFault (before.map Prod.fst) a c shown) :
    check ⟨texts (before ++ a :: later)⟩ job = .error (.invalid ⟨c, job, shown⟩) := by
  obtain ⟨axes, same, sound⟩ := exists_ofAxes_iff.mpr (regular_texts.mpr regular)
  have spelled (s : Text) : .text s ∈ before.map Prod.fst ↔ s ∈ axes.map Axis.name ∨ s ∈ ([] : List Text) := by
    have names : before.map Prod.fst = (texts before).map Prod.fst := by
      rw [texts, List.map_map]
      rfl
    rw [names, same]
    simp [ofAxes]
  have split : texts (before ++ a :: later) =
      (ofAxes axes).axes ++ (a.1, a.2.map Value.cellText) :: texts later := by
    rw [← same]
    simp [texts]
  rw [check, split]
  apply checkAxes_of_first sound (by simp) spelled
  cases fault with
  | unnamed blank => exact .unnamed blank
  | noText other prints => exact .noText other prints
  | repeated named before => exact .repeated named before
  | empty named new => exact .empty named new

end Matrix

/-! ### Declarations -/

namespace Declaration

/-- Everything but the matrix is as a job needs it. -/
structure Ready (d : Declaration) : Prop where
  named : ∃ name, d.name = .text name ∧ Text.isBlankText name = false
  definite : ∀ s ∈ d.steps, s.isDefinite = true
  env : ∃ env, scalarEntries d.env = .ok env
  cache : ∃ cache, d.cache = .ok cache

/-- The steps as the job takes them. -/
def placedSteps (d : Declaration) : List Step :=
  if d.cwd.isNull then d.steps else d.steps.map (Step.withDefaultCwd d.cwd)

theorem isDefinite_withDefaultCwd (cwd : Value) (s : Step) :
    (s.withDefaultCwd cwd).isDefinite = s.isDefinite := by
  unfold Step.withDefaultCwd
  split <;> rfl

theorem definite_placedSteps (d : Declaration) :
    (∀ s ∈ d.placedSteps, s.isDefinite = true) ↔ ∀ s ∈ d.steps, s.isDefinite = true := by
  unfold placedSteps
  split
  next => rfl
  next => simp [isDefinite_withDefaultCwd]

variable {d : Declaration} {axes : List (Value × List Value)}

theorem job_of_declared (inhabited : d.steps ≠ [])
    (given : d.matrix = some (.declared (Matrix.declared axes))) :
    d.job = (Matrix.ofPairs d.name (Matrix.declared axes) >>= fun m => d.cache >>= fun cache =>
      Job.make d.name d.platform d.placedSteps (some m) d.env d.failFast cache) := by
  have some : d.steps.isEmpty = false := by simpa using inhabited
  unfold Declaration.job
  rw [some, given]
  simp only [Option.mapM_some, MatrixSource.matrix]
  cases Matrix.ofPairs d.name (Matrix.declared axes) <;> rfl

theorem exists_job_iff (inhabited : d.steps ≠ [])
    (given : d.matrix = some (.declared (Matrix.declared axes))) :
    (∃ j, d.job = .ok j) ↔ Matrix.Fits axes ∧ d.Ready ∧ Matrix.Regular axes := by
  rw [job_of_declared inhabited given]
  constructor
  · intro made
    obtain ⟨j, made⟩ := made
    obtain ⟨m, converted, made⟩ := bind_eq_ok.mp made
    obtain ⟨cache, told, made⟩ := bind_eq_ok.mp made
    have fits := Matrix.exists_ofPairs_declared_iff.mp ⟨m, converted⟩
    rw [Matrix.ofPairs_declared fits] at converted
    obtain rfl := Except.ok.inj converted
    obtain ⟨sound, name, -, steps, matrix, env, -, -⟩ := Job.make_eq_ok.mp made
    have definite := sound.definite
    rw [← steps, definite_placedSteps] at definite
    refine ⟨fits, ⟨⟨_, name, sound.named⟩, definite, ⟨_, env⟩, ⟨cache, told⟩⟩, ?_⟩
    obtain ⟨checked, has, same⟩ := Option.map_eq_some_iff.mp matrix.symm
    have regular : Matrix.Sound checked := by
      have axes := sound.axes
      rwa [Job.axes, has] at axes
    exact Matrix.regular_texts.mp
      (Matrix.exists_ofAxes_iff.mp ⟨checked, congrArg Matrix.axes same.symm, regular⟩)
  · intro possible
    obtain ⟨fits, ready, regular⟩ := possible
    obtain ⟨name, isText, named⟩ := ready.named
    obtain ⟨env, hasEnv⟩ := ready.env
    obtain ⟨cache, told⟩ := ready.cache
    obtain ⟨checked, same, sound⟩ := Matrix.exists_ofAxes_iff.mpr (Matrix.regular_texts.mpr regular)
    let j : Job := { name, platform := d.platform, steps := d.placedSteps, matrix := some checked, env,
                     failFast := d.failFast, cache }
    refine ⟨j, ?_⟩
    rw [Matrix.ofPairs_declared fits, ok_bind, told, ok_bind, Job.make_eq_ok]
    have wellFormed : j.WellFormed := ⟨named, d.definite_placedSteps.mpr ready.definite, sound⟩
    exact ⟨wellFormed, isText, rfl, rfl, by rw [same]; rfl, hasEnv, rfl, rfl⟩

theorem matrix_of_job {j : Job} (inhabited : d.steps ≠ [])
    (given : d.matrix = some (.declared (Matrix.declared axes))) (made : d.job = .ok j) :
    j.matrix.map Matrix.ofAxes = some ⟨Matrix.texts axes⟩ := by
  have fits := ((exists_job_iff inhabited given).mp ⟨j, made⟩).1
  rw [job_of_declared inhabited given, Matrix.ofPairs_declared fits, ok_bind] at made
  obtain ⟨cache, -, made⟩ := bind_eq_ok.mp made
  obtain ⟨-, -, -, -, matrix, -⟩ := Job.make_eq_ok.mp made
  exact matrix.symm

/-- Behind values that can stand in cells, a value that is no scalar is complained about whatever else
is wrong. -/
theorem job_of_not_scalar {before later : List (Value × List Value)} {axis v : Value}
    {front rest : List Value} (inhabited : d.steps ≠ [])
    (given : d.matrix = some (.declared (Matrix.declared axes)))
    (here : axes = before ++ (axis, front ++ v :: rest) :: later) (fits : Matrix.Fits before)
    (fit : ∀ u ∈ front, u.IsCell) (unfit : v.isScalar = false) :
    d.job = .error (.invalid ⟨.cellNotScalar v.kindName, Matrix.owner d.name, axis⟩) := by
  rw [job_of_declared inhabited given, here, Matrix.ofPairs_of_not_scalar fits fit unfit, error_bind]

/-- Behind axes that the job can have, an axis that it cannot have is complained about. -/
theorem job_of_axisFault {before later : List (Value × List Value)} {a : Value × List Value}
    {c : Complaint} {shown : Value} (inhabited : d.steps ≠ [])
    (given : d.matrix = some (.declared (Matrix.declared axes))) (fits : Matrix.Fits axes)
    (ready : d.Ready) (here : axes = before ++ a :: later) (regular : Matrix.Regular before)
    (fault : Matrix.AxisFault (before.map Prod.fst) a c shown) :
    d.job = .error (.invalid ⟨c, d.name, shown⟩) := by
  obtain ⟨name, isText, named⟩ := ready.named
  obtain ⟨env, hasEnv⟩ := ready.env
  obtain ⟨cache, told⟩ := ready.cache
  have hasName : jobName d.name = .ok name := jobName_eq_ok.mpr ⟨isText, named⟩
  have definite : checkSteps d.name d.placedSteps = .ok () :=
    checkSteps_eq_ok.mpr (d.definite_placedSteps.mpr ready.definite)
  have refused : Matrix.check ⟨Matrix.texts axes⟩ d.name = .error (.invalid ⟨c, d.name, shown⟩) := by
    rw [here]
    exact Matrix.check_of_first regular fault
  rw [job_of_declared inhabited given, Matrix.ofPairs_declared fits, ok_bind, told, ok_bind, Job.make,
    hasName, ok_bind, hasEnv, ok_bind, definite, ok_bind, Option.mapM_some, refused]
  rfl

/-- A declared matrix is accepted exactly when it is well formed, and the job then has its axes in
order, with the values as texts. Otherwise there is a first value that cannot stand in a cell: a scalar
that is too long to print, or it is complained about with its axis, whatever else is wrong. Or all
values can stand in cells, and when everything but the axes is in order, there is a first axis that the
job cannot have, which is complained about if its name can be printed. The complaints name the job,
those about values only if its name counts as something. -/
theorem matrix_accepted_iff (d : Declaration) (axes : List (Value × List Value))
    (inhabited : d.steps ≠ []) (given : d.matrix = some (.declared (Matrix.declared axes))) :
    ((∃ j, d.job = .ok j) ↔ Matrix.Fits axes ∧ d.Ready ∧ Matrix.Regular axes) ∧
      (∀ j, d.job = .ok j → j.matrix.map Matrix.ofAxes = some ⟨Matrix.texts axes⟩) ∧
      (¬ Matrix.Fits axes → ∃ before axis front v rest later,
        axes = before ++ (axis, front ++ v :: rest) :: later ∧ Matrix.Fits before ∧
          (∀ u ∈ front, u.IsCell) ∧ ¬ v.IsCell ∧ (v.isScalar = false → d.job =
            .error (.invalid ⟨.cellNotScalar v.kindName, Matrix.owner d.name, axis⟩))) ∧
      (Matrix.Fits axes → d.Ready → ¬ Matrix.Regular axes → ∃ before a later,
        axes = before ++ a :: later ∧ Matrix.Regular before ∧ ¬ Matrix.Regular (before ++ [a]) ∧
          (a.1.plain?.isSome = true → ∃ c shown, Matrix.AxisFault (before.map Prod.fst) a c shown ∧
            d.job = .error (.invalid ⟨c, d.name, shown⟩))) := by
  refine ⟨exists_job_iff inhabited given, fun j made => matrix_of_job inhabited given made, ?_, ?_⟩
  · intro misfit
    obtain ⟨before, axis, front, v, rest, later, here, fits, fit, unfit⟩ :=
      Matrix.exists_first_misfit misfit
    refine ⟨before, axis, front, v, rest, later, here, fits, fit, unfit, fun other => ?_⟩
    exact job_of_not_scalar inhabited given here fits fit other
  · intro fits ready irregular
    obtain ⟨before, a, later, here, regular, irregular⟩ := Matrix.exists_first_irregular irregular
    refine ⟨before, a, later, here, regular, irregular, fun shown => ?_⟩
    obtain ⟨c, axis, fault⟩ := Matrix.exists_axisFault regular irregular shown
    exact ⟨c, axis, fault, job_of_axisFault inhabited given fits ready here regular fault⟩

/-- A job with one step. -/
def single (name : Value) (axes : List (Value × List Value)) : Declaration where
  name
  platform := .text "linux"
  steps := [.command (.text "make") (.text "make") .null .null]
  matrix := some (.declared (Matrix.declared axes))

theorem build_accepted :
    let axes := [(.text "os", [.text "linux", .bool true]), (.text "debug", [.bool false])]
    (single (.text "build") axes).steps ≠ [] ∧
      ∃ j, (single (.text "build") axes).job = .ok j ∧ j.matrix.map Matrix.ofAxes =
        some ⟨[(.text "os", ["linux", "true"]), (.text "debug", ["false"])]⟩ := by
  intro axes
  have inhabited : (single (.text "build") axes).steps ≠ [] := by simp [single]
  obtain ⟨accepted, kept, -, -⟩ := matrix_accepted_iff (single (.text "build") axes) axes inhabited rfl
  have fits : Matrix.Fits axes := by
    intro a member
    simp only [axes, List.mem_cons, List.not_mem_nil, or_false] at member
    rcases member with rfl | rfl
    · simp only [List.forall_mem_cons]
      exact ⟨⟨rfl, by decide⟩, ⟨rfl, by decide⟩, by simp⟩
    · simp only [List.forall_mem_cons]
      exact ⟨⟨rfl, by decide⟩, by simp⟩
  have ready : (single (.text "build") axes).Ready := by
    refine ⟨⟨"build", rfl, by decide⟩, ?_, ⟨_, rfl⟩, ⟨_, rfl⟩⟩
    simp [single, Step.command, Step.isDefinite, Value.isNull]
  have regular : Matrix.Regular axes := by
    refine ⟨?_, ?_, ?_⟩
    · simp only [axes, List.forall_mem_cons]
      exact ⟨⟨_, rfl, by decide⟩, ⟨_, rfl, by decide⟩, by simp⟩
    · have different : Text.ofString "os" ≠ Text.ofString "debug" := by decide
      simp [axes, different]
    · simp [axes]
  obtain ⟨j, made⟩ := accepted.mpr ⟨fits, ready, regular⟩
  exact ⟨inhabited, j, made, kept j made⟩

/-- A name that counts as nothing is left out of a complaint about a value. -/
theorem zero_not_named :
    let d := single (.int 0) [(.text "b", [.null])]
    d.steps ≠ [] ∧ Value.isScalar .null = false ∧
      ¬ ∃ e, d.job = .error (.invalid e) ∧ e.job = d.name := by
  refine ⟨by simp [single], rfl, fun named => ?_⟩
  obtain ⟨e, failed, same⟩ := named
  have told : (single (.int 0) [(.text "b", [.null])]).job =
      .error (.invalid ⟨.cellNotScalar "NoneType", .text [], .text "b"⟩) := rfl
  obtain rfl := Failure.invalid.inj (Except.error.inj (told.symm.trans failed))
  cases same

end Declaration

end JobMatrix
