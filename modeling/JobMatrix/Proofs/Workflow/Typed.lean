import JobMatrix.Proofs.CacheKey.Existence

set_option autoImplicit false

/-!
Workflows of which every part is of the kind that it is meant to be. Declarations are free to put
values of other kinds in most places; documents are not. For a workflow whose parts are of their kinds
only texts without bytes stand in the way of its keys and of its plan.
-/

namespace JobMatrix

structure Step.Typed (s : Step) : Prop where
  name : ∃ t, s.name = .text t
  run : s.run.IsTextIfGiven
  uses : s.uses.IsTextIfGiven
  shell : s.shell.IsTextIfGiven
  cwd : s.cwd.IsTextIfGiven

structure CacheSpec.Typed (c : CacheSpec) : Prop where
  paths : ∀ p ∈ c.paths, ∃ t, p = .text t
  key : c.key.IsTextIfGiven

structure Job.Typed (j : Job) : Prop where
  platform : ∃ label, j.platform = .text label
  steps : ∀ s ∈ j.steps, s.Typed
  failFast : ∃ b, j.failFast = .bool b
  cache : ∀ c ∈ j.cache, c.Typed

structure Workflow.Typed (w : Workflow) : Prop where
  name : ∃ t, w.name = .text t
  jobs : ∀ j ∈ w.jobs, j.Typed
  triggers : ∃ entries, w.triggers = .map entries

/-! ### Documents -/

theorem Value.ofText?_isTextIfGiven (t : Option Text) : (Value.ofText? t).IsTextIfGiven := by
  cases t with
  | none => exact .inl rfl
  | some t => exact .inr ⟨t, rfl⟩

namespace StepForm

variable {s : StepForm}

theorem typed_of_step {t : Step} (made : s.step = .ok t) : t.Typed := by
  obtain ⟨name, inputs, env, -, -, -, rfl⟩ := step_eq_ok.mp made
  exact ⟨⟨name, rfl⟩, Value.ofText?_isTextIfGiven _, Value.ofText?_isTextIfGiven _,
    Value.ofText?_isTextIfGiven _, Value.ofText?_isTextIfGiven _⟩

theorem isTextIfGiven_of_keyTemplate {key : Value} (made : s.keyTemplate = .ok key) :
    key.IsTextIfGiven := by
  unfold keyTemplate at made
  split at made
  next => exact .inl (Except.ok.inj made).symm
  next => exact .inl (Except.ok.inj made).symm
  next =>
    obtain ⟨t, -, made⟩ := bind_eq_ok.mp made
    exact .inr ⟨t, (pure_eq_ok.mp made).symm⟩

theorem typed_of_cacheSpec {spec : CacheSpec} (made : s.cacheSpec = .ok spec) : spec.Typed := by
  obtain ⟨paths, -, key, lines⟩ := cacheSpec_eq_ok.mp made
  refine ⟨fun p member => ?_, isTextIfGiven_of_keyTemplate key⟩
  rw [lines] at member
  obtain ⟨t, -, rfl⟩ := List.mem_map.mp member
  exact ⟨t, rfl⟩

theorem typed_of_cacheOf {forms : List StepForm} {cache : Option CacheSpec}
    (told : cacheOf forms = .ok cache) : ∀ c ∈ cache, c.Typed := by
  unfold cacheOf at told
  cases found : forms.find? isCache with
  | none =>
    rw [found] at told
    obtain rfl : none = cache := pure_eq_ok.mp told
    simp
  | some f =>
    rw [found, Option.mapM_some] at told
    obtain ⟨spec, specified, rfl⟩ := map_eq_ok.mp told
    intro c member
    obtain rfl : spec = c := Option.some.inj member
    exact typed_of_cacheSpec specified

end StepForm

theorem JobForm.Made.typed {form : JobForm} {path name : Text} {known : List Text} {j : Job}
    (made : form.Made path name known j) : j.Typed := by
  refine ⟨⟨_, made.runs⟩, fun s member => ?_, ⟨_, made.failFast⟩, StepForm.typed_of_cacheOf made.cache⟩
  obtain ⟨f, -, step⟩ := exists_mem_left_of_forall₂ (mapM_eq_ok.mp made.steps) member
  exact StepForm.typed_of_step step

theorem Step.Typed.renderable {s : Step} (typed : s.Typed) : s.Renderable :=
  ⟨typed.name, typed.run, typed.shell, typed.cwd⟩

namespace Job

variable {j : Job} {scope : Option Text}

/-- The texts that the keys of the job are made of have bytes. -/
def EncodableIn (j : Job) (scope : Option Text) : Prop := ∀ i ∈ j.instances, i.EncodableIn scope

theorem Typed.template (typed : j.Typed) : j.template.IsTextIfGiven := by
  unfold Job.template
  cases kept : j.cache with
  | none => exact .inl rfl
  | some c => exact (typed.cache c kept).key

end Job

namespace Workflow

variable {w : Workflow} {scope : Option Text}

def EncodableIn (w : Workflow) (scope : Option Text) : Prop := ∀ j ∈ w.jobs, j.EncodableIn scope

end Workflow

end JobMatrix
