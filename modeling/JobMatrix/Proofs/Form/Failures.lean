import JobMatrix.Proofs.Form.Declared
import JobMatrix.Proofs.Matrix.Conversion
import JobMatrix.Proofs.Workflow.Checks

set_option autoImplicit false

/-!
What keeps a form from giving a workflow. Besides complaints about what the document says there are
two ways only: a command of blanks that a step has to take its name from, and an integer that is too
long to print. The parts are gone through one after the other, each with the ways it can fail in.
-/

namespace JobMatrix

/-! ### What is printed -/

theorem Value.scalar_eq_error {v : Value} {f : Failure} (failed : v.scalar = .error f) :
    f = .longInteger ∧ ¬v.Printable := by
  unfold scalar at failed
  split at failed
  next => cases failed
  next unshown => exact ⟨(Except.error.inj failed).symm, by simp [Printable, unshown]⟩

theorem Value.printable_iff_plain? {v : Value} : v.Printable ↔ v.plain?.isSome = true := by
  cases v with
  | null => simp [Printable, scalarText?, plain?, literal?]
  | bool b => simp [Printable, scalarText?, plain?, literal?]
  | _ => exact Iff.rfl

/-- The scalars among the elements of each axis can be printed. -/
def Entries.PrintableCells (axes : Entries Value) : Prop :=
  ∀ a ∈ axes, ∀ values ∈ a.2.elements?, ∀ v ∈ values, v.isScalar = true → v.Printable

structure JobForm.Printable (form : JobForm) : Prop where
  axes : ∀ axes ∈ form.strategy.bind StrategyForm.matrix, axes.PrintableCells
  steps : ∀ s ∈ form.steps, s.inputs.Printable ∧ s.env.Printable
  env : form.env.Printable

def TriggerForm.Printable : TriggerForm → Prop
  | .events names => ∀ v ∈ names, v.Printable
  | _ => True

/-- No integer that is printed is too long for it. -/
structure WorkflowForm.Printable (form : WorkflowForm) : Prop where
  jobs : ∀ j ∈ form.jobs, j.2.Printable
  triggers : form.triggers.Printable

def WorkflowForm.Titled (form : WorkflowForm) : Prop := ∀ j ∈ form.jobs, ∀ s ∈ j.2.steps, s.Titled

/-- How making something of a form can fail: by what is said of the document or of the workflow, by
a command of blanks in place of a name, or by an integer that is too long to print. -/
inductive Failure.OfForm (untitled unprintable : Prop) : Failure → Prop where
  | invalid (e : Invalid) : OfForm untitled unprintable (.invalid e)
  | unloadable (e : Unloadable) : OfForm untitled unprintable (.unloadable e)
  | blankCommand : untitled → OfForm untitled unprintable .blankCommand
  | longInteger : unprintable → OfForm untitled unprintable .longInteger

theorem Failure.OfForm.mono {untitled unprintable untitled' unprintable' : Prop} {f : Failure}
    (h : f.OfForm untitled unprintable) (ht : untitled → untitled')
    (hp : unprintable → unprintable') : f.OfForm untitled' unprintable' := by
  cases h with
  | invalid e => exact .invalid e
  | unloadable e => exact .unloadable e
  | blankCommand blank => exact .blankCommand (ht blank)
  | longInteger long => exact .longInteger (hp long)

/-! ### Steps -/

namespace StepForm

variable {s : StepForm} {f : Failure}

theorem ne_nil_of_given? {t : Option Text} {u : Text} (given : given? t = some u) : u ≠ [] := by
  rintro rfl
  obtain ⟨t, -, kept⟩ := Option.bind_eq_some_iff.mp given
  split at kept
  next => cases kept
  next inhabited =>
    obtain rfl := Option.some.inj kept
    exact inhabited rfl

theorem title_ne_nil {name : Text} (titled : s.title = .ok name) : name ≠ [] := by
  unfold title at titled
  split at titled
  next given =>
    obtain rfl := Except.ok.inj titled
    exact ne_nil_of_given? given
  next =>
    split at titled
    next =>
      obtain rfl := Except.ok.inj titled
      simp [Text.ofString, Text.ofChars]
    next => cases titled
  next =>
    obtain rfl := Except.ok.inj titled
    cases action : given? s.uses with
    | none => decide
    | some action' => exact ne_nil_of_given? action

theorem scalars_eq_error {entries : Entries Value} (failed : scalars entries = .error f) :
    f = .longInteger ∧ ¬entries.Printable := by
  rcases bind_eq_error.mp failed with failed | ⟨_, -, none⟩
  · obtain ⟨e, member, failed⟩ := exists_mem_of_mapM_eq_error failed
    rcases bind_eq_error.mp failed with failed | ⟨_, -, none⟩
    · obtain ⟨rfl, unprintable⟩ := Value.scalar_eq_error failed
      exact ⟨rfl, fun printable => unprintable (printable e member)⟩
    · simp at none
  · simp at none

theorem title_eq_error (failed : s.title = .error f) : f = .blankCommand ∧ ¬s.Titled := by
  have untitled : ¬s.Titled := fun titled => by
    obtain ⟨name, made⟩ := titled.title
    simp [made] at failed
  refine ⟨?_, untitled⟩
  unfold title at failed
  split at failed
  next => cases failed
  next =>
    split at failed
    next => cases failed
    next => exact (Except.error.inj failed).symm
  next => cases failed

theorem titled_of_title {name : Text} (titled : s.title = .ok name) : s.Titled := by
  intro unnamed run command
  rw [title, unnamed, Option.mem_def.mp command] at titled
  simp only at titled
  split at titled
  next first rest words =>
    rw [← Bool.not_eq_true]
    intro blank
    rw [Text.lines_eq_nil_iff.mpr (Text.trim_eq_nil_iff.mpr blank)] at words
    cases words
  next => cases titled

theorem step_eq_error (failed : s.step = .error f) :
    f.OfForm (¬s.Titled) ¬(s.inputs.Printable ∧ s.env.Printable) := by
  rcases bind_eq_error.mp failed with failed | ⟨_, -, failed⟩
  · obtain ⟨rfl, untitled⟩ := title_eq_error failed
    exact .blankCommand untitled
  · rcases bind_eq_error.mp failed with failed | ⟨_, -, failed⟩
    · obtain ⟨rfl, unprintable⟩ := scalars_eq_error failed
      exact .longInteger fun printable => unprintable printable.1
    · rcases bind_eq_error.mp failed with failed | ⟨_, -, none⟩
      · obtain ⟨rfl, unprintable⟩ := scalars_eq_error failed
        exact .longInteger fun printable => unprintable printable.2
      · simp at none

theorem printable_of_step {t : Step} (made : s.step = .ok t) :
    s.inputs.Printable ∧ s.env.Printable := by
  obtain ⟨name, inputs, env, -, shown, shownEnv, -⟩ := step_eq_ok.mp made
  exact ⟨printable_iff.mpr ⟨inputs, shown⟩, printable_iff.mpr ⟨env, shownEnv⟩⟩

theorem titled_of_steps {forms : List StepForm} {steps : List Step}
    (made : forms.mapM step = .ok steps) :
    ∀ t ∈ steps, ∃ name, t.name = .text name ∧ name ≠ [] := by
  intro t member
  obtain ⟨s, -, made⟩ := exists_mem_left_of_forall₂ (mapM_eq_ok.mp made) member
  obtain ⟨name, inputs, env, titled, -, -, rfl⟩ := step_eq_ok.mp made
  exact ⟨name, rfl, title_ne_nil titled⟩

end StepForm

/-! ### Matrices -/

namespace Matrix

variable {job axis v : Value} {f : Failure}

theorem cell_eq_error (failed : cell job axis v = .error f) :
    f.OfForm False (v.isScalar = true ∧ ¬v.Printable) := by
  unfold cell at failed
  split at failed
  next scalar =>
    split at failed
    next => cases failed
    next unshown =>
      obtain rfl := Except.error.inj failed
      exact .longInteger ⟨scalar, by simp [Value.Printable, unshown]⟩
  next =>
    obtain rfl := Except.error.inj failed
    exact .invalid _

theorem axisOf_eq_error {values : Value} (failed : axisOf job axis values = .error f) :
    f.OfForm False ¬∀ items ∈ values.elements?, ∀ v ∈ items, v.isScalar = true → v.Printable := by
  unfold axisOf at failed
  split at failed
  next =>
    obtain rfl := Except.error.inj failed
    exact .invalid _
  next items here =>
    rcases bind_eq_error.mp failed with failed | ⟨_, -, none⟩
    · obtain ⟨v, member, failed⟩ := exists_mem_of_mapM_eq_error failed
      apply (cell_eq_error failed).mono id
      rintro ⟨scalar, unprintable⟩ printable
      exact unprintable (printable items here v member scalar)
    · simp at none

variable {axes : Entries Value}

theorem ofPairs_eq_error (failed : ofPairs job (axes.map fun a => (.text a.1, a.2)) = .error f) :
    f.OfForm False ¬axes.PrintableCells := by
  rcases bind_eq_error.mp failed with failed | ⟨_, -, none⟩
  · obtain ⟨_, member, failed⟩ := exists_mem_of_mapM_eq_error failed
    obtain ⟨a, inAxes, rfl⟩ := List.mem_map.mp member
    exact (axisOf_eq_error failed).mono id fun unprintable printable =>
      unprintable (printable a inAxes)
  · simp at none

def Named (m : Matrix) : Prop := ∀ a ∈ m.axes, ∃ name, a.1 = .text name

theorem ofPairs_eq_ok {m : Matrix} (made : ofPairs job (axes.map fun a => (.text a.1, a.2)) = .ok m) :
    m.Named ∧ axes.PrintableCells := by
  have each := axes_of_ofPairs made
  constructor
  · intro a member
    obtain ⟨p, inPairs, name, -⟩ := exists_mem_left_of_forall₂ each member
    obtain ⟨b, -, rfl⟩ := List.mem_map.mp inPairs
    exact ⟨b.1, name⟩
  · intro b member items here v inItems _
    have inPairs := List.mem_map_of_mem (f := fun a : Text × Value => (Value.text a.1, a.2)) member
    obtain ⟨a, -, -, others, has, cells, -⟩ := exists_mem_right_of_forall₂ each inPairs
    obtain rfl := Option.some.inj (has.symm.trans here)
    exact (cells v inItems).printable

theorem checkAxes_eq_error {seen : List Text} {pairs : List (Value × List Text)}
    (named : ∀ a ∈ pairs, ∃ name, a.1 = .text name) (failed : checkAxes job seen pairs = .error f) :
    ∃ e, f = .invalid e := by
  induction pairs generalizing seen with
  | nil => cases failed
  | cons a pairs ih =>
    obtain ⟨axis, values⟩ := a
    obtain ⟨⟨name, rfl⟩, later⟩ := List.forall_mem_cons.mp named
    simp only [checkAxes] at failed
    split at failed
    next => exact ⟨_, (Except.error.inj failed).symm⟩
    next =>
      split at failed
      next => exact ⟨_, (Except.error.inj failed).symm⟩
      next =>
        split at failed
        next => exact ⟨_, (Except.error.inj failed).symm⟩
        next =>
          rcases bind_eq_error.mp failed with failed | ⟨_, -, none⟩
          · exact ih later failed
          · simp at none

end Matrix

/-! ### Jobs -/

theorem checkSteps_eq_error {job : Value} {steps : List Step} {f : Failure}
    (titled : ∀ s ∈ steps, ∃ name, s.name = .text name) (failed : checkSteps job steps = .error f) :
    ∃ e, f = .invalid e := by
  unfold checkSteps at failed
  split at failed
  next s found =>
    obtain ⟨name, isText⟩ := titled s (List.mem_of_find?_eq_some found)
    have shown : s.name.literal?.isSome = true := by simp [isText, Value.literal?]
    rw [if_pos shown] at failed
    exact ⟨_, (Except.error.inj failed).symm⟩
  next => cases failed

theorem Job.make_eq_invalid {name : Text} {platform : Value} {steps : List Step}
    {matrix : Option Matrix} {texts : Entries Text} {failFast : Value} {cache : Option CacheSpec}
    {f : Failure} (titled : ∀ s ∈ steps, ∃ name, s.name = .text name)
    (named : ∀ m ∈ matrix, m.Named)
    (failed : make (.text name) platform steps matrix (texts.map fun e => (.text e.1, .text e.2))
      failFast cache = .error f) : ∃ e, f = .invalid e := by
  rcases bind_eq_error.mp failed with failed | ⟨_, -, failed⟩
  · simp only [jobName] at failed
    split at failed
    next => exact ⟨_, (Except.error.inj failed).symm⟩
    next => cases failed
  · rw [scalarEntries_texts, ok_bind] at failed
    rcases bind_eq_error.mp failed with failed | ⟨_, -, failed⟩
    · exact checkSteps_eq_error titled failed
    · rcases bind_eq_error.mp failed with failed | ⟨_, -, none⟩
      · cases matrix with
        | none => cases failed
        | some m =>
          rw [Option.mapM_some, map_eq_error] at failed
          exact Matrix.checkAxes_eq_error (named m rfl) failed
      · simp at none

namespace JobForm

variable {path name : Text} {known : List Text} {form : JobForm} {f : Failure}

theorem matrix_eq_error {axes : Entries Value} (failed : matrix path name axes = .error f) :
    f.OfForm False ¬axes.PrintableCells := by
  unfold matrix at failed
  split at failed
  next => exact Matrix.ofPairs_eq_error failed
  next =>
    obtain rfl := Except.error.inj failed
    exact .unloadable _

theorem matrix_eq_ok {axes : Entries Value} {m : Matrix} (made : matrix path name axes = .ok m) :
    m.Named ∧ axes.PrintableCells := by
  unfold matrix at made
  split at made
  next => exact Matrix.ofPairs_eq_ok made
  next => cases made

theorem job_eq_error (failed : form.job path name known = .error f) :
    f.OfForm (¬∀ s ∈ form.steps, s.Titled) ¬form.Printable := by
  rcases bind_eq_error.mp failed with failed | ⟨matrix, madeMatrix, failed⟩
  · cases given : form.strategy.bind StrategyForm.matrix with
    | none => simp [given] at failed
    | some axes =>
      rw [given, Option.mapM_some, map_eq_error] at failed
      apply (matrix_eq_error failed).mono False.elim
      exact fun unprintable printable => unprintable (printable.axes axes given)
  rcases bind_eq_error.mp failed with failed | ⟨steps, madeSteps, failed⟩
  · obtain ⟨s, member, failed⟩ := exists_mem_of_mapM_eq_error failed
    apply (StepForm.step_eq_error failed).mono
    · exact fun untitled titled => untitled (titled s member)
    · exact fun unprintable printable => unprintable (printable.steps s member)
  rcases bind_eq_error.mp failed with failed | ⟨env, -, failed⟩
  · obtain ⟨rfl, unprintable⟩ := StepForm.scalars_eq_error failed
    exact .longInteger fun printable => unprintable printable.env
  rcases bind_eq_error.mp failed with failed | ⟨cache, -, failed⟩
  · -- What the first such step keeps has been printed with its inputs.
    obtain ⟨cache, told⟩ := StepForm.exists_cacheOf madeSteps
    rw [told] at failed
    cases failed
  · have titled (s : Step) (member : s ∈ steps) : ∃ name, s.name = .text name := by
      obtain ⟨name, same, -⟩ := StepForm.titled_of_steps madeSteps s member
      exact ⟨name, same⟩
    have named (m : Matrix) (here : m ∈ matrix) : m.Named := by
      cases given : form.strategy.bind StrategyForm.matrix with
      | none =>
        rw [given] at madeMatrix
        obtain rfl := pure_eq_ok.mp madeMatrix
        cases here
      | some axes =>
        rw [given, Option.mapM_some] at madeMatrix
        obtain ⟨n, made, rfl⟩ := map_eq_ok.mp madeMatrix
        obtain rfl := Option.some.inj here
        exact (matrix_eq_ok made).1
    obtain ⟨e, rfl⟩ := Job.make_eq_invalid titled named failed
    exact .invalid e

theorem Made.titled {j : Job} (made : form.Made path name known j) : ∀ s ∈ form.steps, s.Titled := by
  intro s member
  obtain ⟨t, -, madeStep⟩ := exists_mem_right_of_forall₂ (mapM_eq_ok.mp made.steps) member
  obtain ⟨title, _, _, titled, -⟩ := StepForm.step_eq_ok.mp madeStep
  exact StepForm.titled_of_title titled

theorem Made.printable {j : Job} (made : form.Made path name known j) : form.Printable := by
  refine ⟨fun axes given => ?_, fun s member => ?_, StepForm.printable_iff.mpr ⟨_, made.env⟩⟩
  · have checked := made.matrix
    rw [Option.mem_def.mp given, Option.mapM_some] at checked
    obtain ⟨m, madeMatrix, -⟩ := map_eq_ok.mp checked
    exact (matrix_eq_ok madeMatrix).2
  · obtain ⟨t, -, madeStep⟩ := exists_mem_right_of_forall₂ (mapM_eq_ok.mp made.steps) member
    exact StepForm.printable_of_step madeStep

end JobForm

/-! ### Workflows -/

theorem TriggerForm.entries_eq_error {t : TriggerForm} {f : Failure}
    (failed : t.entries = .error f) : f.OfForm False ¬t.Printable := by
  cases t with
  | events names =>
    rcases bind_eq_error.mp failed with failed | ⟨_, -, none⟩
    · obtain ⟨v, member, failed⟩ := exists_mem_of_mapM_eq_error failed
      split at failed
      next => cases failed
      next unshown =>
        obtain rfl := Except.error.inj failed
        refine .longInteger fun printable => ?_
        simpa [unshown] using Value.printable_iff_plain?.mp (printable v member)
    · simp at none
  | _ => cases failed

theorem TriggerForm.printable_of_entries {t : TriggerForm} {entries : List (Value × Value)}
    (told : t.entries = .ok entries) : t.Printable := by
  cases t with
  | events names =>
    obtain ⟨texts, each, -⟩ := bind_eq_ok.mp told
    intro v member
    obtain ⟨s, -, shown⟩ := exists_mem_right_of_forall₂ (mapM_eq_ok.mp each) member
    rw [Value.printable_iff_plain?]
    split at shown
    next t plain => simp [plain]
    next => cases shown
  | _ => trivial

theorem Workflow.make_eq_invalid {settings : Settings} {name triggers : Value} {jobs : List Job}
    {extra : List Text} {f : Failure} (labelled : ∀ j ∈ jobs, ∃ label, j.platform = .text label)
    (failed : make settings name jobs triggers extra = .error f) : ∃ e, f = .invalid e := by
  obtain ⟨before, j, first, rejects⟩ := make_eq_error.mp failed
  have member : j ∈ jobs := first.inOrder.subset (by simp)
  obtain ⟨label, runs⟩ := labelled j member
  cases rejects with
  | repeated => exact ⟨_, rfl⟩
  | unknown => exact ⟨_, rfl⟩
  | unhashable _ hashed => simp [runs, Value.unhashable?] at hashed
  | unprintable _ _ shown => simp [runs, Value.literal?] at shown

namespace WorkflowForm

/-- A form that gives a workflow names all its steps. One that gives none fails by what is said of
the document or of the workflow, unless a step has only a command of blanks to be named by or an
integer is too long to print, and then it never gives one. -/
theorem workflow_fails_on_purpose (form : WorkflowForm) (settings : Settings) (path stem : Text)
    (extra : List Text) :
    (∀ w, form.workflow settings path stem extra = .ok w →
      (∀ j ∈ w.jobs, ∀ s ∈ j.steps, ∃ name, s.name = .text name ∧ name ≠ []) ∧
        form.Titled ∧ form.Printable) ∧
    ∀ f, form.workflow settings path stem extra = .error f →
      f.OfForm (¬form.Titled) ¬form.Printable := by
  constructor
  · intro w made
    obtain ⟨each, triggers, told, -⟩ := workflow_eq_ok.mp made
    refine ⟨fun j member => ?_, fun f member => ?_, fun f member => ?_,
      TriggerForm.printable_of_entries told⟩
    · obtain ⟨f, -, madeJob⟩ := exists_mem_left_of_forall₂ each member
      exact StepForm.titled_of_steps madeJob.steps
    · obtain ⟨j, -, madeJob⟩ := exists_mem_right_of_forall₂ each member
      exact madeJob.titled
    · obtain ⟨j, -, madeJob⟩ := exists_mem_right_of_forall₂ each member
      exact madeJob.printable
  · intro f failed
    rcases bind_eq_error.mp failed with failed | ⟨jobs, each, failed⟩
    · obtain ⟨j, member, failed⟩ := exists_mem_of_mapM_eq_error failed
      apply (JobForm.job_eq_error failed).mono
      · exact fun untitled titled => untitled (titled j member)
      · exact fun unprintable printable => unprintable (printable.jobs j member)
    rcases bind_eq_error.mp failed with failed | ⟨triggers, -, failed⟩
    · apply (TriggerForm.entries_eq_error failed).mono False.elim
      exact fun unprintable printable => unprintable printable.triggers
    · have labelled (j : Job) (member : j ∈ jobs) : ∃ label, j.platform = .text label := by
        obtain ⟨f, -, madeJob⟩ := exists_mem_left_of_forall₂ (mapM_eq_ok.mp each) member
        exact ⟨_, (JobForm.job_eq_ok.mp madeJob).runs⟩
      obtain ⟨e, rfl⟩ := Workflow.make_eq_invalid labelled failed
      exact .invalid e

/-- A document whose only job has one step, with this command and with this value in its
environment. -/
def singleStep (command : Text) (value : Value) : Yaml.Document :=
  documentOf [
    .map [(.text "jobs", 1)],
    .map [(.text "build", 2)],
    .map [(.text "runs-on", 3), (.text "steps", 4)],
    .scalar (.text "linux"),
    .list [5],
    .map [(.text "run", 6), (.text "env", 7)],
    .scalar (.text command),
    .map [(.text "A", 8)],
    .scalar value]

/-- The document is one of a workflow, and fails with this kind of failure. -/
def FailsAs (d : Yaml.Document) (kind : String) : Prop :=
  ∃ entries form, d.cell d.root = .map entries ∧ Check.workflow d entries = .ok form ∧
    kindOf (form.workflow {} "w.yml" "w" []) = some kind

theorem failsAs_of_check {d : Yaml.Document} {kind : String} (entries : List (Value × Nat))
    (root : d.cell d.root = .map entries)
    (passes : (Check.workflow d entries).toOption.any (fun form =>
      decide (kindOf (form.workflow {} "w.yml" "w" []) = some kind)) = true) : FailsAs d kind := by
  obtain ⟨form, shaped, failed⟩ := exists_of_any passes
  exact ⟨entries, form, root, shaped, of_decide_eq_true failed⟩

/-- Neither a command of blanks nor a number that is too long is complained about. -/
theorem fails_by_oversight :
    FailsAs (singleStep "  " .null) "IndexError" ∧
      FailsAs (singleStep "make" longNumber) "ValueError" := by
  constructor
  · exact failsAs_of_check [(.text "jobs", 1)] rfl (by decide +kernel)
  · exact failsAs_of_check [(.text "jobs", 1)] rfl (by decide +kernel)

end WorkflowForm

end JobMatrix
