import JobMatrix.Workflow
import JobMatrix.Proofs.Outcome

set_option autoImplicit false

/-!
Jobs and workflows exist only as results of their checks. What the checks of a job let through is
said here without them: the axes, the steps and the name that a job can have, and the parts that it
was made of.
-/

namespace JobMatrix

structure Matrix.Sound (axes : List Axis) : Prop where
  named : ∀ a ∈ axes, Text.isBlankText a.name = false
  distinct : (axes.map Axis.name).Nodup
  inhabited : ∀ a ∈ axes, a.values ≠ []

def Job.axes (j : Job) : List Axis := j.matrix.getD []

structure Job.WellFormed (j : Job) : Prop where
  named : Text.isBlankText j.name = false
  definite : ∀ s ∈ j.steps, s.isDefinite = true
  axes : Matrix.Sound j.axes

/-- Some parts make the job. -/
def Job.Constructed (j : Job) : Prop :=
  ∃ name platform steps matrix env failFast cache,
    Job.make name platform steps matrix env failFast cache = .ok j

/-- Some parts make the workflow, with jobs that exist. -/
def Workflow.Constructed (w : Workflow) : Prop :=
  ∃ settings name jobs triggers extra, (∀ j ∈ jobs, j.Constructed) ∧
    Workflow.make settings name jobs triggers extra = .ok w

namespace Matrix

theorem sound_nil : Sound [] := ⟨by simp, by simp, by simp⟩

theorem sound_cons {a : Axis} {axes : List Axis} :
    Sound (a :: axes) ↔ Text.isBlankText a.name = false ∧ (∀ b ∈ axes, b.name ≠ a.name) ∧
      a.values ≠ [] ∧ Sound axes := by
  constructor
  · rintro ⟨named, distinct, inhabited⟩
    simp only [List.forall_mem_cons] at named inhabited
    rw [List.map_cons, List.nodup_cons] at distinct
    refine ⟨named.1, fun b member same => distinct.1 ?_, inhabited.1, named.2, distinct.2,
      inhabited.2⟩
    exact same ▸ List.mem_map_of_mem member
  · rintro ⟨first, other, values, named, distinct, inhabited⟩
    refine ⟨List.forall_mem_cons.mpr ⟨first, named⟩, ?_, List.forall_mem_cons.mpr ⟨values, inhabited⟩⟩
    refine List.nodup_cons.mpr ⟨fun member => ?_, distinct⟩
    obtain ⟨b, hb, same⟩ := List.mem_map.mp member
    exact other b hb same

theorem checkAxes_cons_eq_ok {job name : Value} {seen values : List Text}
    {rest : List (Value × List Text)} {axes : List Axis} :
    checkAxes job seen ((name, values) :: rest) = .ok axes ↔
      ∃ s later, name = .text s ∧ Text.isBlankText s = false ∧ s ∉ seen ∧ values ≠ [] ∧
        checkAxes job (s :: seen) rest = .ok later ∧ axes = ⟨s, values⟩ :: later := by
  constructor
  · intro passed
    unfold checkAxes at passed
    split at passed
    next s =>
      split at passed
      next => simp at passed
      next named =>
        split at passed
        next => simp at passed
        next new =>
          split at passed
          next => simp at passed
          next inhabited =>
            simp only [bind_eq_ok, pure_eq_ok] at passed
            obtain ⟨later, passedLater, rfl⟩ := passed
            exact ⟨s, later, rfl, by simpa using named, by simpa using new,
              by simpa using inhabited, passedLater, rfl⟩
    next => split at passed <;> simp at passed
  · rintro ⟨s, later, rfl, named, new, inhabited, passedLater, rfl⟩
    simp [checkAxes, named, new, inhabited, passedLater, bind, Except.bind, pure, Except.pure]

/-- The checks let axes through as they are, when no name is blank or came before and no axis is
without values. -/
theorem checkAxes_eq_ok {job : Value} {seen : List Text} {pairs : List (Value × List Text)}
    {axes : List Axis} :
    checkAxes job seen pairs = .ok axes ↔
      pairs = (ofAxes axes).axes ∧ Sound axes ∧ ∀ a ∈ axes, a.name ∉ seen := by
  induction pairs generalizing seen axes with
  | nil =>
    cases axes with
    | nil => simp [checkAxes, ofAxes, sound_nil]
    | cons a axes => simp [checkAxes, ofAxes]
  | cons pair pairs ih =>
    obtain ⟨name, values⟩ := pair
    rw [checkAxes_cons_eq_ok]
    constructor
    · rintro ⟨s, later, rfl, named, new, inhabited, passed, rfl⟩
      obtain ⟨rfl, sound, fresh⟩ := ih.mp passed
      have other : ∀ b ∈ later, b.name ≠ s := fun b member same =>
        fresh b member (List.mem_cons.mpr (.inl same))
      refine ⟨rfl, sound_cons.mpr ⟨named, other, inhabited, sound⟩, ?_⟩
      exact List.forall_mem_cons.mpr
        ⟨new, fun a member seenBefore => fresh a member (List.mem_cons_of_mem s seenBefore)⟩
    · rintro ⟨spelled, sound, fresh⟩
      cases axes with
      | nil => simp [ofAxes] at spelled
      | cons a axes =>
        obtain ⟨first, rfl⟩ := List.cons.inj spelled
        obtain ⟨rfl, rfl⟩ := Prod.mk.inj first
        obtain ⟨named, other, inhabited, sound⟩ := sound_cons.mp sound
        obtain ⟨new, fresh⟩ := List.forall_mem_cons.mp fresh
        refine ⟨a.name, axes, rfl, named, new, inhabited, ih.mpr ⟨rfl, sound, ?_⟩, rfl⟩
        intro b member seenBefore
        exact (List.mem_cons.mp seenBefore).elim (other b member) (fresh b member)

theorem check_eq_ok {m : Matrix} {job : Value} {axes : List Axis} :
    m.check job = .ok axes ↔ m = ofAxes axes ∧ Sound axes := by
  obtain ⟨pairs⟩ := m
  rw [check, checkAxes_eq_ok]
  simp [ofAxes]

theorem checked_eq_ok {matrix : Option Matrix} {job : Value} {axes : Option (List Axis)} :
    matrix.mapM (·.check job) = .ok axes ↔
      matrix = axes.map ofAxes ∧ Sound (axes.getD []) := by
  cases matrix with
  | none => cases axes <;> simp [sound_nil]
  | some m =>
    change (m.check job).map some = .ok axes ↔ _
    cases axes <;> simp [map_eq_ok, check_eq_ok]

end Matrix

theorem jobName_eq_ok {name : Value} {text : Text} :
    jobName name = .ok text ↔ name = .text text ∧ Text.isBlankText text = false := by
  cases name <;> simp [jobName]
  split <;> grind

theorem checkSteps_eq_ok {job : Value} {steps : List Step} :
    checkSteps job steps = .ok () ↔ ∀ s ∈ steps, s.isDefinite = true := by
  unfold checkSteps
  split
  next s found =>
    have indefinite := List.find?_some found
    have member := List.mem_of_find?_eq_some found
    have refused : ¬∀ t ∈ steps, t.isDefinite = true := fun definite => by
      simp [definite s member] at indefinite
    by_cases shown : s.name.literal?.isSome = true
    · simp [shown, refused]
    · simp [shown, refused]
  next none => simpa using none

theorem Job.make_eq_ok {name platform : Value} {steps : List Step} {matrix : Option Matrix}
    {env : List (Value × Value)} {failFast : Value} {cache : Option CacheSpec} {j : Job} :
    Job.make name platform steps matrix env failFast cache = .ok j ↔
      j.WellFormed ∧ name = .text j.name ∧ platform = j.platform ∧ steps = j.steps ∧
        matrix = j.matrix.map Matrix.ofAxes ∧ scalarEntries env = .ok j.env ∧
        failFast = j.failFast ∧ cache = j.cache := by
  simp only [Job.make, bind_eq_ok, pure_eq_ok, jobName_eq_ok, Matrix.checked_eq_ok]
  constructor
  · rintro ⟨text, ⟨rfl, named⟩, entries, hasEntries, ⟨⟩, definite, axes, ⟨rfl, sound⟩, rfl⟩
    exact ⟨⟨named, checkSteps_eq_ok.mp definite, sound⟩, rfl, rfl, rfl, rfl, hasEntries, rfl, rfl⟩
  · rintro ⟨⟨named, definite, sound⟩, rfl, rfl, rfl, rfl, hasEntries, rfl, rfl⟩
    exact ⟨_, ⟨rfl, named⟩, _, hasEntries, (), checkSteps_eq_ok.mpr definite, _, ⟨rfl, sound⟩, rfl⟩

theorem Job.Constructed.wellFormed {j : Job} (made : j.Constructed) : j.WellFormed := by
  obtain ⟨_, _, _, _, _, _, _, made⟩ := made
  exact (make_eq_ok.mp made).1

theorem Workflow.Constructed.jobs {w : Workflow} (made : w.Constructed) :
    ∀ j ∈ w.jobs, j.Constructed := by
  obtain ⟨_, _, _, _, _, each, made⟩ := made
  simp only [make, bind_eq_ok, pure_eq_ok] at made
  obtain ⟨_, _, rfl⟩ := made
  exact each

end JobMatrix
