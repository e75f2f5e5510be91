import JobMatrix.Proofs.Form.Jobs
import JobMatrix.Proofs.Form.Shape
import Mathlib.Algebra.Ring.Int.Defs

set_option autoImplicit false

/-!
Documents and declarations. A form gives the job that a declaration with the same parts gives,
although the parts are made and checked in another order: a declaration is given steps that have
been made before, and leaves its environment to the job. The two orders can be told apart only by
integers that are too long to print.
-/

namespace JobMatrix

/-- A workflow as one writes it down around jobs; triggers and labels are values of any kind. -/
def Workflow.declare (settings : Settings) (name : Value) (jobs : List Job)
    (triggers labels : Value) : Except Failure Workflow := do
  let triggers ← triggersOf triggers
  let extra ← labelsOf labels
  make settings name jobs (.map triggers) extra

namespace JobForm

/-- The matrix of a job as a mapping. -/
def axes? (form : JobForm) : Option (List (Value × Value)) :=
  (form.strategy.bind StrategyForm.matrix).map fun axes => axes.map fun a => (.text a.1, a.2)

/-- The declaration with the parts of a form. -/
def declaration (name : Text) (known : List Text) (form : JobForm) (steps : List Step)
    (cache : Option CacheSpec) : Declaration where
  name := .text name
  platform := .text (platform known form.runner)
  steps := steps
  matrix := form.axes?.map .declared
  env := form.env.map fun e => (.text e.1, e.2)
  failFast := .bool ((form.strategy.map StrategyForm.failFast).getD true)
  cachePaths := (cache.map fun c => .list c.paths).getD .null
  cacheKey := (cache.map CacheSpec.key).getD .null

def declared (name : Text) (known : List Text) (form : JobForm) : Except Failure Job := do
  let steps ← form.steps.mapM StepForm.step
  let cache ← StepForm.cacheOf form.steps
  (form.declaration name known steps cache).job

end JobForm

/-- The workflow of the declarations with the parts of a form. -/
def WorkflowForm.declared (settings : Settings) (stem : Text) (extra : List Text)
    (form : WorkflowForm) : Except Failure Workflow := do
  let jobs ← form.jobs.mapM fun j => j.2.declared j.1 (Platform.known settings extra)
  let triggers ← form.triggers.entries
  Workflow.declare settings (.text ((given? form.name).getD stem)) jobs (.map triggers)
    (.tuple (extra.map .text))

/-! ### The parts of a declaration -/

theorem Declaration.cache_eq {d : Declaration} {cache : Option CacheSpec}
    (paths : d.cachePaths = (cache.map fun c => .list c.paths).getD .null)
    (key : d.cacheKey = (cache.map CacheSpec.key).getD .null) : d.cache = .ok cache := by
  unfold Declaration.cache
  rw [paths, key]
  cases cache with
  | none => rfl
  | some spec =>
    obtain ⟨listed, template⟩ := spec
    cases listed <;> rfl

theorem Job.make_scalars {env : Entries Value} {texts : Entries Text}
    (shown : StepForm.scalars env = .ok texts) (name platform : Value) (steps : List Step)
    (matrix : Option Matrix) (failFast : Value) (cache : Option CacheSpec) :
    make name platform steps matrix (env.map fun e => (.text e.1, e.2)) failFast cache =
      make name platform steps matrix (texts.map fun e => (.text e.1, .text e.2)) failFast
        cache := by
  simp only [make, scalarEntries_eq_scalars, shown, scalarEntries_of_scalars shown]

theorem Job.make_unprintable {name : Text} {env : Entries Value} {failure : Failure}
    (named : Text.isBlankText name = false) (unprintable : StepForm.scalars env = .error failure)
    (platform : Value) (steps : List Step) (matrix : Option Matrix) (failFast : Value)
    (cache : Option CacheSpec) :
    make (.text name) platform steps matrix (env.map fun e => (.text e.1, e.2)) failFast cache =
      .error failure := by
  simp only [make, jobName_eq_ok.mpr ⟨rfl, named⟩, scalarEntries_eq_scalars, unprintable]
  rfl

/-! ### Jobs -/

namespace JobForm

/-- A form that says nothing a declaration cannot say. -/
structure Plain (form : JobForm) : Prop where
  unreserved : ∀ axes ∈ form.strategy.bind StrategyForm.matrix,
    ∀ key ∈ reservedAxes, axes.get? (Text.ofString key) = none
  titled : ∀ s ∈ form.steps, s.Titled

instance (form : JobForm) : Decidable form.Plain :=
  decidable_of_iff (_ ∧ _) ⟨fun h => ⟨h.1, h.2⟩, fun h => ⟨h.1, h.2⟩⟩

/-- The values that a form prints at another time than its declaration can be printed: those of its
steps, which come after the matrix and before that of a declaration, and those of the environment,
which come before the name is looked at and after. -/
structure Orderly (name : Text) (form : JobForm) : Prop where
  steps : (form.axes?.mapM (Matrix.ofPairs (.text name))).isOk = true ∨
    ∀ s ∈ form.steps, s.inputs.Printable ∧ s.env.Printable
  env : Text.isBlankText name = false ∨ form.env.Printable

instance (name : Text) (form : JobForm) : Decidable (form.Orderly name) :=
  decidable_of_iff (_ ∧ _) ⟨fun h => ⟨h.1, h.2⟩, fun h => ⟨h.1, h.2⟩⟩

variable {path name : Text} {known : List Text} {form : JobForm}

theorem matrix_unreserved {axes : Entries Value}
    (unreserved : ∀ key ∈ reservedAxes, axes.get? (Text.ofString key) = none) :
    matrix path name axes = Matrix.ofPairs (.text name) (axes.map fun a => (.text a.1, a.2)) := by
  have none : reservedAxes.filter (fun key => (axes.get? (Text.ofString key)).isSome) = [] :=
    List.filter_eq_nil_iff.mpr fun key member => by simp [unreserved key member]
  unfold matrix
  rw [none]

theorem Plain.matrix (plain : form.Plain) :
    (form.strategy.bind StrategyForm.matrix).mapM (matrix path name) =
      form.axes?.mapM (Matrix.ofPairs (.text name)) := by
  unfold axes?
  cases declared : form.strategy.bind StrategyForm.matrix with
  | none => rfl
  | some axes => simp [matrix_unreserved (plain.unreserved axes declared)]

theorem declaration_matrix (name : Text) (known : List Text) (form : JobForm) (steps : List Step)
    (cache : Option CacheSpec) :
    (form.declaration name known steps cache).matrix.mapM (·.matrix (.text name)) =
      form.axes?.mapM (Matrix.ofPairs (.text name)) := by
  unfold declaration
  cases form.axes? <;> rfl

theorem declaration_job (name : Text) (known : List Text) (form : JobForm) {steps : List Step}
    (hasSteps : steps ≠ []) (cache : Option CacheSpec) :
    (form.declaration name known steps cache).job =
      form.axes?.mapM (Matrix.ofPairs (.text name)) >>= fun matrix =>
        Job.make (.text name) (.text (platform known form.runner)) steps matrix
          (form.env.map fun e => (.text e.1, e.2))
          (.bool ((form.strategy.map StrategyForm.failFast).getD true)) cache := by
  have told : (form.declaration name known steps cache).cache = .ok cache :=
    Declaration.cache_eq rfl rfl
  have inhabited : (form.declaration name known steps cache).steps.isEmpty = false := by
    simpa [declaration] using hasSteps
  have matrix := declaration_matrix name known form steps cache
  simp only [Declaration.job, inhabited, told]
  rw [show (form.declaration name known steps cache).name = .text name from rfl, matrix]
  rfl

/-- A form gives the job that its declaration gives. -/
theorem job_eq_declared (plain : form.Plain) (orderly : form.Orderly name)
    (hasSteps : form.steps ≠ []) :
    form.job path name known = form.declared name known := by
  unfold job declared
  rw [plain.matrix]
  cases made : form.steps.mapM StepForm.step with
  | error failure =>
    -- The form has its matrix looked at before its steps, the declaration after them.
    rcases orderly.steps with passed | printable
    · obtain ⟨matrix, passed⟩ := exists_of_isOk passed
      rw [passed]
      rfl
    · obtain ⟨steps, made'⟩ := exists_mapM_eq_ok fun s member =>
        (plain.titled s member).step (printable s member).1 (printable s member).2
      simp [made] at made'
  | ok steps =>
    obtain ⟨cache, told⟩ := StepForm.exists_cacheOf made
    have inhabited : steps ≠ [] := fun none => by
      have := (mapM_eq_ok.mp made).length_eq
      simp [none, hasSteps] at this
    have declared := declaration_job name known form inhabited cache
    cases passed : form.axes?.mapM (Matrix.ofPairs (.text name)) with
    | error failure => simp only [told, declared, passed, ok_bind, error_bind]
    | ok matrix =>
      cases shown : StepForm.scalars form.env with
      | error failure =>
        -- The form has its environment printed before its name is looked at.
        have named : Text.isBlankText name = false := orderly.env.resolve_right fun printable => by
          obtain ⟨texts, shown'⟩ := StepForm.printable_iff.mp printable
          simp [shown] at shown'
        simp only [told, declared, passed, ok_bind, error_bind]
        exact (Job.make_unprintable named shown _ _ _ _ _).symm
      | ok texts =>
        simp only [told, declared, passed, ok_bind]
        exact (Job.make_scalars shown _ _ _ _ _ _).symm

end JobForm

/-! ### Workflows -/

theorem Value.firstUnhashable?_texts (texts : List Text) :
    firstUnhashable? (texts.map .text) = none := by
  induction texts with
  | nil => rfl
  | cons t texts ih => simp [firstUnhashable?, unhashable?, ih]

theorem Workflow.labelsOf_texts (labels : List Text) :
    labelsOf (.tuple (labels.map .text)) = .ok labels := by
  have items : (Value.tuple (labels.map .text)).items = .ok (labels.map .text) := rfl
  simp only [labelsOf, items, ok_bind, Value.firstUnhashable?_texts, List.filterMap_map]
  exact congrArg _ List.filterMap_some

theorem Workflow.triggersOf_map (entries : List (Value × Value)) :
    triggersOf (.map entries) = .ok entries := by
  cases entries <;> rfl

theorem WorkflowForm.workflow_eq_declared {form : WorkflowForm} (sound : form.Sound)
    (plain : ∀ j ∈ form.jobs, j.2.Plain) (orderly : ∀ j ∈ form.jobs, j.2.Orderly j.1)
    (settings : Settings) (path stem : Text) (extra : List Text) :
    form.workflow settings path stem extra = form.declared settings stem extra := by
  have jobs : form.jobs.mapM (fun j => j.2.job path j.1 (Platform.known settings extra)) =
      form.jobs.mapM fun j => j.2.declared j.1 (Platform.known settings extra) :=
    mapM_congr fun j member => JobForm.job_eq_declared (plain j member) (orderly j member)
      (sound.jobs j member).hasSteps
  unfold workflow declared
  simp only [jobs, Workflow.declare, Workflow.triggersOf_map, Workflow.labelsOf_texts]
  rfl

namespace Load

/-- The workflow of a document is that of the declarations with the same parts, and what keeps one
from being made is what keeps the other from being made. -/
theorem document_eq_declared {settings : Settings} {t : FileTree} {path full : Path}
    {bytes : List UInt8} {extra : List Text} {form : WorkflowForm}
    (expanded : path.expandHome t.homes = .ok full)
    (found : t.lookup full = .ok (some (.file bytes)))
    (read : readForm full.text bytes = .ok form)
    (plain : ∀ j ∈ form.jobs, j.2.Plain) (orderly : ∀ j ∈ form.jobs, j.2.Orderly j.1) :
    document settings t path extra = form.declared settings full.stem extra := by
  rw [document_of_form expanded found read extra]
  exact form.workflow_eq_declared (readForm_sound read) plain orderly settings full.text full.stem
    extra

/-- A job on the second of its labels, with a matrix and a step that keeps files. -/
def sample : List UInt8 :=
  ("jobs: \x7bt: \x7bruns-on: [x, edge], strategy: \x7bmatrix: \x7bv: [1]\x7d\x7d, env: \x7bA: true\x7d, "
    ++ "steps: [\x7buses: actions/cache, with: \x7bpath: a, key: k\x7d\x7d]\x7d\x7d").toList.map fun c =>
      UInt8.ofNat c.toNat

theorem sample_passes : (readForm "w.yml" sample).toOption.any (fun form =>
    decide (∀ j ∈ form.jobs, j.2.Plain) && decide (∀ j ∈ form.jobs, j.2.Orderly j.1) &&
      (form.declared {} "w" ["edge"]).isOk) = true := by
  decide +kernel

theorem sample_eq_declared :
    ∃ form, readForm "w.yml" sample = .ok form ∧
      document {} (onlyFile sample) (.ofText "w.yml") ["edge"] = form.declared {} "w" ["edge"] ∧
      (form.declared {} "w" ["edge"]).isOk = true := by
  obtain ⟨form, read, checked⟩ := exists_of_any sample_passes
  simp only [Bool.and_eq_true, decide_eq_true_eq] at checked
  obtain ⟨⟨plain, orderly⟩, made⟩ := checked
  have expanded : (Path.ofText "w.yml").expandHome (onlyFile sample).homes =
    .ok (.ofText "w.yml") := rfl
  have readHere : readForm (Path.ofText "w.yml").text sample = .ok form := by
    rw [text_onlyFile]
    exact read
  have same : document {} (onlyFile sample) (.ofText "w.yml") ["edge"] =
      form.declared {} (Path.ofText "w.yml").stem ["edge"] :=
    document_eq_declared expanded (lookup_onlyFile sample) readHere plain orderly
  rw [stem_onlyFile] at same
  exact ⟨form, read, same, made⟩

end Load

/-! ### Numbers that are too long -/

namespace WorkflowForm

/-- An integer with more digits than are printed. -/
def longNumber : Value := .int (10 ^ Integer.maxDigits)

def documentOf (cells : List Yaml.Cell) : Yaml.Document where
  cells := (cells.map some).toArray

/-- A document whose only job has the empty name, and a number too long to print in its
environment. -/
def nameless : Yaml.Document :=
  documentOf [
    .map [(.text "jobs", 1)],
    .map [(.text [], 2)],
    .map [(.text "runs-on", 3), (.text "env", 4), (.text "steps", 5)],
    .scalar (.text "linux"),
    .map [(.text "A", 6)],
    .list [7],
    .scalar longNumber,
    .map [(.text "run", 8)],
    .scalar (.text "make")]

/-- A document whose only job has an axis that is no list, and a number too long to print in the
environment of its step. -/
def misdeclared : Yaml.Document :=
  documentOf [
    .map [(.text "jobs", 1)],
    .map [(.text "build", 2)],
    .map [(.text "runs-on", 3), (.text "strategy", 4), (.text "steps", 5)],
    .scalar (.text "linux"),
    .map [(.text "matrix", 6)],
    .list [7],
    .map [(.text "os", 3)],
    .map [(.text "run", 8), (.text "env", 9)],
    .scalar (.text "make"),
    .map [(.text "A", 10)],
    .scalar longNumber]

/-- The kind of a failure. -/
def kindOf {α : Type} : Except Failure α → Option String
  | .ok _ => none
  | .error failure => some failure.kind

/-- The document is one of a workflow, and fails with one kind of failure as it is, and with the
other as declarations. -/
def Apart (d : Yaml.Document) (kind other : String) : Prop :=
  ∃ entries form, d.cell d.root = .map entries ∧ Check.workflow d entries = .ok form ∧
    (∀ j ∈ form.jobs, j.2.Plain) ∧ kindOf (form.workflow {} "w.yml" "w" []) = some kind ∧
    kindOf (form.declared {} "w" []) = some other

theorem apart_of_check {d : Yaml.Document} {kind other : String}
    (entries : List (Value × Nat)) (root : d.cell d.root = .map entries)
    (passes : (Check.workflow d entries).toOption.any (fun form =>
      decide (∀ j ∈ form.jobs, j.2.Plain) &&
        decide (kindOf (form.workflow {} "w.yml" "w" []) = some kind) &&
        decide (kindOf (form.declared {} "w" []) = some other)) = true) : Apart d kind other := by
  obtain ⟨form, shaped, checked⟩ := exists_of_any passes
  simp only [Bool.and_eq_true, decide_eq_true_eq] at checked
  exact ⟨entries, form, root, shaped, checked.1.1, checked.1.2, checked.2⟩

/-- A job without a name is refused for that only as a declaration, and a matrix that is no mapping
of lists only as a document, when numbers are too long to print. -/
theorem long_numbers_apart :
    Apart nameless "ValueError" "ValidationError" ∧
      Apart misdeclared "ValidationError" "ValueError" := by
  constructor
  · exact apart_of_check [(.text "jobs", 1)] rfl (by decide +kernel)
  · exact apart_of_check [(.text "jobs", 1)] rfl (by decide +kernel)

end WorkflowForm

end JobMatrix
