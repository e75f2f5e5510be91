import JobMatrix.Proofs.Form.Steps
import JobMatrix.Proofs.Workflow.Checks

set_option autoImplicit false

/-!
Jobs and workflows as documents write them, and what is made of them, part by part. The labels that
are accepted decide nothing of a job but its platform.
-/

namespace JobMatrix

theorem scalarEntries_eq_scalars (entries : Entries Value) :
    scalarEntries (entries.map fun e => (.text e.1, e.2)) = StepForm.scalars entries := by
  simp only [scalarEntries, StepForm.scalars, List.mapM_map]
  rfl

theorem scalarEntries_texts (texts : Entries Text) :
    scalarEntries (texts.map fun e => (.text e.1, .text e.2)) = .ok (Entries.ofPairs texts) := by
  have shown := scalarEntries_eq_scalars (texts.map fun e => (e.1, .text e.2))
  rwa [StepForm.scalars_text, List.map_map] at shown

theorem scalarEntries_of_scalars {env : Entries Value} {texts : Entries Text}
    (shown : StepForm.scalars env = .ok texts) :
    scalarEntries (texts.map fun e => (.text e.1, .text e.2)) = .ok texts := by
  obtain ⟨pairs, -, rfl⟩ := StepForm.scalars_eq_ok.mp shown
  rw [scalarEntries_texts, Entries.ofPairs_ofPairs]

namespace JobForm

variable {form : JobForm} {path name : Text} {known : List Text} {j : Job}

/-- Every part of the job is made of its part of the form. -/
structure Made (form : JobForm) (path name : Text) (known : List Text) (j : Job) : Prop where
  sound : j.WellFormed
  named : j.name = name
  runs : j.platform = .text (platform known form.runner)
  steps : form.steps.mapM StepForm.step = .ok j.steps
  matrix : (form.strategy.bind StrategyForm.matrix).mapM (matrix path name) =
    .ok (j.matrix.map Matrix.ofAxes)
  env : StepForm.scalars form.env = .ok j.env
  failFast : j.failFast = .bool ((form.strategy.map StrategyForm.failFast).getD true)
  cache : StepForm.cacheOf form.steps = .ok j.cache

theorem job_eq_ok : form.job path name known = .ok j ↔ form.Made path name known j := by
  simp only [job, bind_eq_ok]
  constructor
  · rintro ⟨matrix, axes, steps, madeSteps, env, shown, cache, told, made⟩
    obtain ⟨sound, named, runs, rfl, rfl, hasEnv, fails, rfl⟩ := Job.make_eq_ok.mp made
    obtain rfl := Except.ok.inj ((scalarEntries_of_scalars shown).symm.trans hasEnv)
    exact ⟨sound, (Value.text.inj named).symm, runs.symm, madeSteps, axes, shown, fails.symm, told⟩
  · intro made
    refine ⟨_, made.matrix, _, made.steps, _, made.env, _, made.cache, Job.make_eq_ok.mpr ?_⟩
    exact ⟨made.sound, congrArg _ made.named.symm, made.runs.symm, rfl, rfl,
      scalarEntries_of_scalars made.env, made.failFast.symm, rfl⟩

/-- With other labels the form gives the same job on another platform. -/
theorem Made.relabelled (made : form.Made path name known j) (labels : List Text) :
    form.Made path name labels { j with platform := .text (JobForm.platform labels form.runner) } where
  sound := ⟨made.sound.named, made.sound.definite, made.sound.axes⟩
  named := made.named
  runs := rfl
  steps := made.steps
  matrix := made.matrix
  env := made.env
  failFast := made.failFast
  cache := made.cache

end JobForm

theorem WorkflowForm.workflow_eq_ok {settings : Settings} {path stem : Text} {extra : List Text}
    {form : WorkflowForm} {w : Workflow} :
    form.workflow settings path stem extra = .ok w ↔
      List.Forall₂ (fun f j => f.2.Made path f.1 (Platform.known settings extra) j)
        form.jobs w.jobs ∧
      ∃ triggers, form.triggers.entries = .ok triggers ∧
        Workflow.make settings (.text ((given? form.name).getD stem)) w.jobs (.map triggers) extra =
          .ok w := by
  simp only [workflow, bind_eq_ok, mapM_eq_ok, JobForm.job_eq_ok]
  constructor
  · rintro ⟨jobs, each, triggers, told, made⟩
    obtain ⟨-, rfl⟩ := Workflow.make_eq_ok.mp made
    exact ⟨each, triggers, told, made⟩
  · rintro ⟨each, triggers, told, made⟩
    exact ⟨w.jobs, each, triggers, told, made⟩

end JobMatrix
