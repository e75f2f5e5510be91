import JobMatrix.Proofs.CacheKey.Scopes
import JobMatrix.Proofs.Form.Jobs
import JobMatrix.Proofs.Form.Shape
import JobMatrix.Proofs.Placeholder.Splitting

set_option autoImplicit false

/-!
The key that a document declares stands in two places of a plan. With each instance it is rendered
from what the job keeps, under the environment of the job; in the step that keeps it, it is
rendered as an input of the step, under the environment of the job overridden by that of the step.
The two agree unless the step gives another value to a variable that the key names.
-/

namespace JobMatrix

namespace Placeholder

/-- A placeholder of the text names the property of the context. -/
def Mentions (t head property : Text) : Prop :=
  ∃ pieces last, Splits t pieces last ∧ ∃ piece ∈ pieces, Names piece.2.expression head property

theorem replacement_congr {c c' : Context} {p : Placeholder}
    (agree : ∀ head property, Names p.expression head property →
      lookup c head property = lookup c' head property) :
    replacement c p = replacement c' p := by
  unfold replacement
  split
  next head property named => exact agree head property (reference?_eq_some.mp named)
  next => rfl

/-- Rendering depends only on the properties that the text names. -/
theorem render_congr {c c' : Context} {t : Text}
    (agree : ∀ head property, Mentions t head property →
      lookup c head property = lookup c' head property) : render c t = render c' t := by
  obtain ⟨pieces, last, cut, rendered⟩ := exists_splits c t
  obtain ⟨pieces', last', cut', rendered'⟩ := exists_splits c' t
  obtain ⟨rfl, rfl⟩ := cut'.unique cut
  have same : pieces.flatMap (fun piece => piece.1 ++ replacement c piece.2) =
      pieces.flatMap fun piece => piece.1 ++ replacement c' piece.2 := by
    refine List.flatMap_congr fun piece member => ?_
    rw [replacement_congr fun head property named =>
      agree head property ⟨pieces, last, cut, piece, member, named⟩]
  rw [render, render, rendered, rendered', assembled, assembled, same]

/-- The contexts of an instance under two environments differ only in the variables. -/
theorem lookup_context {i : Instance} {env env' : Entries Text} {c c' : Context}
    (hc : i.context env = .ok c) (hc' : i.context env' = .ok c') {head property : Text}
    (agree : head = "env" → (env.get? property).getD [] = (env'.get? property).getD []) :
    lookup c head property = lookup c' head property := by
  simp only [Instance.context, bind_eq_ok, pure_eq_ok] at hc hc'
  obtain ⟨os, isOs, rfl⟩ := hc
  obtain ⟨os', isOs', rfl⟩ := hc'
  obtain rfl := Except.ok.inj (isOs.symm.trans isOs')
  simp only [lookup, Entries.get?_cons, Entries.get?_nil]
  split
  next => rfl
  next =>
    split
    next => rfl
    next =>
      split
      next isEnv => exact agree isEnv.symm
      next => rfl

end Placeholder

/-- The step uses the action that keeps files between runs. -/
def Step.keepsFiles (s : Step) : Bool :=
  match s.uses with
  | .text action => action.takeWhile (· != .char '@') == Text.ofString StepForm.cacheAction
  | _ => false

namespace StepForm

theorem keepsFiles_step {s : StepForm} {t : Step} (made : s.step = .ok t) :
    t.keepsFiles = s.isCache := by
  obtain ⟨name, inputs, env, -, -, -, rfl⟩ := step_eq_ok.mp made
  obtain ⟨_, _, uses, _, _, _, _⟩ := s
  cases uses with
  | none => rfl
  | some action => cases action <;> rfl

theorem find?_isCache {forms : List StepForm} {before after : List Step} {s : Step}
    (each : List.Forall₂ (fun f t => f.step = .ok t) forms (before ++ s :: after))
    (first : ∀ t ∈ before, t.keepsFiles = false) (keeps : s.keepsFiles = true) :
    ∃ f, forms.find? isCache = some f ∧ f.step = .ok s := by
  induction before generalizing forms with
  | nil =>
    obtain ⟨f, rest, made, -, rfl⟩ := List.forall₂_cons_right_iff.mp each
    exact ⟨f, List.find?_cons_of_pos (keepsFiles_step made ▸ keeps), made⟩
  | cons t before ih =>
    obtain ⟨f, rest, made, later, rfl⟩ := List.forall₂_cons_right_iff.mp each
    obtain ⟨g, found, here⟩ := ih later fun u member => first u (List.mem_cons_of_mem t member)
    have other : f.isCache = false := keepsFiles_step made ▸ first t List.mem_cons_self
    exact ⟨g, by rw [List.find?_cons_of_neg (by simp [other]), found], here⟩

/-- What the forms of steps keep has the template that the first step that keeps files is given. -/
theorem key_of_cacheOf {forms : List StepForm} {before after : List Step} {s : Step}
    {cache : Option CacheSpec} {template : Text} (sound : ∀ f ∈ forms, f.Sound)
    (made : forms.mapM step = .ok (before ++ s :: after)) (told : cacheOf forms = .ok cache)
    (first : ∀ t ∈ before, t.keepsFiles = false) (keeps : s.keepsFiles = true)
    (given : s.inputs.get? "key" = some template) (inhabited : template ≠ []) :
    cache.map CacheSpec.key = some (.text template) := by
  obtain ⟨f, found, here⟩ := find?_isCache (mapM_eq_ok.mp made) first keeps
  rw [cacheOf, found, Option.mapM_some] at told
  obtain ⟨spec, specified, rfl⟩ := map_eq_ok.mp told
  obtain ⟨_, _, key, _⟩ := cacheSpec_eq_ok.mp specified
  have := keyTemplate_of_step (sound f (List.mem_of_find?_eq_some found)).inputs here given inhabited
  rw [key] at this
  rw [Option.map_some, Except.ok.inj this]

end StepForm

/-! ### Jobs of documents -/

theorem Load.exists_jobForm {settings : Settings} {t : FileTree} {path : Path} {extra : List Text}
    {w : Workflow} (loaded : document settings t path extra = .ok w) {j : Job} (member : j ∈ w.jobs) :
    ∃ form : JobForm, form.Sound ∧ form.steps.mapM StepForm.step = .ok j.steps ∧
      StepForm.cacheOf form.steps = .ok j.cache := by
  obtain ⟨_, _, form, -, -, read, made⟩ := document_eq_ok loaded
  obtain ⟨each, -⟩ := WorkflowForm.workflow_eq_ok.mp made
  obtain ⟨f, inForm, made⟩ := exists_mem_left_of_forall₂ each member
  exact ⟨f.2, (readForm_sound read).jobs f inForm, made.steps, made.cache⟩

/-! ### Both renderings -/

namespace Step

variable {i : Instance} {env : Entries Text} {s t : Step}

theorem inputs_of_rendered (h : s.rendered i env = .ok t) :
    ∃ c, i.context (env.update s.env) = .ok c ∧ t.inputs = renderEntries c s.inputs := by
  simp only [rendered, bind_eq_ok, pure_eq_ok] at h
  obtain ⟨c, context, _, _, _, _, _, _, _, _, rfl⟩ := h
  exact ⟨c, context, rfl⟩

/-- The step leaves the variables that a template names as the job has them. -/
def Keeps (s : Step) (env : Entries Text) (template : Text) : Prop :=
  ∀ property, Placeholder.Mentions template "env" property →
    ∀ value, s.env.get? property = some value → value = (env.get? property).getD []

theorem Keeps.render_eq {template : Text} (keeps : s.Keeps env template)
    (distinct : s.env.keys.Nodup) {c c' : Context} (hc : i.context env = .ok c)
    (hc' : i.context (env.update s.env) = .ok c') : render c template = render c' template := by
  refine Placeholder.render_congr fun head property mentioned => ?_
  refine Placeholder.lookup_context hc hc' ?_
  rintro rfl
  rw [Entries.get?_update distinct]
  cases given : s.env.get? property with
  | none => rfl
  | some value => exact (keeps property mentioned value given).symm

end Step

namespace CacheKey

theorem rendered_of_resolve {i : Instance} {scope : Option Text} {template : Text}
    {env : Entries Text} {key : CacheKey} (inhabited : template ≠ [])
    (resolved : resolve i scope (.text template) env = .ok key) :
    ∃ c, i.context env = .ok c ∧ key.rendered = some (render c template) := by
  obtain ⟨_, _, -, rendered, -⟩ := resolve_eq_ok.mp resolved
  have present : (Value.text template).isPresent = true := by
    simpa [Value.isPresent] using inhabited
  simp only [renderTemplate, present, if_true, bind_eq_ok, pure_eq_ok] at rendered
  obtain ⟨c, context, text, readable, rendered⟩ := rendered
  obtain rfl : template = text := Except.ok.inj readable
  exact ⟨c, context, rendered.symm⟩

end CacheKey

namespace Job

/-- In the plan of a job the key of each instance is the input of the step. -/
theorem rendered_eq_input {j : Job} {scope : Option Text} {planned : List PlannedInstance}
    (made : j.plan scope = .ok planned) {before after : List Step} {s : Step} {template : Text}
    (steps : j.steps = before ++ s :: after)
    (key : j.cache.map CacheSpec.key = some (.text template)) (inhabited : template ≠ [])
    (given : s.inputs.get? "key" = some template) (distinct : s.env.keys.Nodup)
    (keeps : s.Keeps j.env template) :
    ∀ p ∈ planned, ∃ t text, p.steps[before.length]? = some t ∧
      t.inputs.get? "key" = some text ∧ p.key.rendered = some text := by
  intro p member
  simp only [plan, bind_eq_ok, mapM_eq_ok] at made
  obtain ⟨keys, resolved, each⟩ := made
  obtain ⟨⟨i, k⟩, inKeys, planned⟩ := exists_mem_left_of_forall₂ each member
  obtain ⟨i', -, rfl, resolved⟩ := exists_mem_left_of_forall₂ (cacheKeys_eq_ok.mp resolved) inKeys
  have declared : (j.cache.map CacheSpec.key).getD .null = .text template := by rw [key]; rfl
  rw [declared] at resolved
  obtain ⟨c, context, shown⟩ := CacheKey.rendered_of_resolve inhabited resolved
  simp only [planInstance, bind_eq_ok, pure_eq_ok, renderedSteps, mapM_eq_ok] at planned
  obtain ⟨_, -, rendered, eachStep, rfl⟩ := planned
  have here : j.steps[before.length]? = some s := by simp [steps]
  obtain ⟨t, there, made⟩ := getElem?_of_forall₂ eachStep here
  obtain ⟨c', context', inputs⟩ := Step.inputs_of_rendered made
  refine ⟨t, render c' template, there, ?_, ?_⟩
  · rw [inputs, renderEntries, Entries.get?_map, given]
    rfl
  · rw [shown, keeps.render_eq distinct context context']

end Job

/-- In the plan of a document the key of each instance is the input of the first step that keeps
files, when that is not empty and the step leaves the variables that it names as they are. -/
theorem Load.rendered_key_eq_input {settings settings' : Settings} {t : FileTree} {path : Path}
    {extra : List Text} {w : Workflow} {scope : Option Text} {plan : Plan}
    (loaded : document settings t path extra = .ok w) (made : w.plan settings' scope = .ok plan)
    {j : Job} {planned : Text × List PlannedInstance} (paired : (j, planned) ∈ w.jobs.zip plan.jobs)
    {before after : List Step} {s : Step} {template : Text} (steps : j.steps = before ++ s :: after)
    (first : ∀ u ∈ before, u.keepsFiles = false) (keepsFiles : s.keepsFiles = true)
    (given : s.inputs.get? "key" = some template) (inhabited : template ≠ [])
    (keeps : s.Keeps j.env template) :
    ∀ p ∈ planned.2, ∃ u text, p.steps[before.length]? = some u ∧
      u.inputs.get? "key" = some text ∧ p.key.rendered = some text := by
  obtain ⟨form, sound, madeSteps, told⟩ := exists_jobForm loaded (List.of_mem_zip paired).1
  have key := StepForm.key_of_cacheOf sound.steps (steps ▸ madeSteps) told first keepsFiles given
    inhabited
  have distinct : s.env.keys.Nodup := by
    have inside : s ∈ j.steps := by simp [steps]
    obtain ⟨f, -, madeStep⟩ := exists_mem_left_of_forall₂ (mapM_eq_ok.mp madeSteps) inside
    obtain ⟨_, _, env, -, -, shown, rfl⟩ := StepForm.step_eq_ok.mp madeStep
    exact StepForm.scalars_nodup shown
  simp only [Workflow.plan, bind_eq_ok, pure_eq_ok] at made
  obtain ⟨jobs, eachJob, _, -, rfl⟩ := made
  have madeJob := (List.forall₂_zip (mapM_pair_eq_ok.mp eachJob) paired).2
  exact Job.rendered_eq_input madeJob steps key inhabited given distinct keeps

namespace Load

/-- A document with one job, which has one step, and what it is planned with. -/
def onlyStep? (w : Workflow) : Option (Job × Step) :=
  match w.jobs with
  | [j] => match j.steps with
    | [s] => some (j, s)
    | _ => none
  | _ => none

theorem onlyStep?_eq_some {w : Workflow} {j : Job} {s : Step} (h : onlyStep? w = some (j, s)) :
    w.jobs = [j] ∧ j.steps = [s] := by
  unfold onlyStep? at h
  split at h
  next j' jobs =>
    split at h
    next s' steps =>
      obtain ⟨rfl, rfl⟩ := Prod.mk.inj (Option.some.inj h)
      exact ⟨jobs, steps⟩
    next => simp at h
  next => simp at h

/-- A step that keeps files and gives a variable of its key the value that the job gives it. -/
def agreeing : List UInt8 :=
  ("jobs: \x7bt: \x7bruns-on: linux, env: \x7bV: b\x7d, steps: [\x7buses: actions/cache, env: \x7bV: b\x7d, "
    ++ "with: \x7bkey: 'k-$\x7b\x7b env.V \x7d\x7d'\x7d\x7d]\x7d\x7d").toList.map fun c => UInt8.ofNat c.toNat

theorem agreeing_passes :
    (document {} (onlyFile agreeing) (.ofText "w.yml") []).toOption.any (fun w =>
      ((onlyStep? w).any fun (j, s) => s.keepsFiles && decide (s.env = j.env) &&
        decide (s.inputs.get? "key" = some (Text.ofString "k-$\x7b\x7b env.V \x7d\x7d"))) &&
      (w.plan {} none).toOption.any fun plan => plan.instances.length == 1) = true := by
  decide +kernel

theorem agreeing_rendered_key_eq_input :
    ∃ w plan, document {} (onlyFile agreeing) (.ofText "w.yml") [] = .ok w ∧
      w.plan {} none = .ok plan ∧ plan.instances.length = 1 ∧
      ∀ e ∈ w.jobs.zip plan.jobs, ∀ p ∈ e.2.2, ∃ u text, p.steps[0]? = some u ∧
        u.inputs.get? "key" = some text ∧ p.key.rendered = some text := by
  obtain ⟨w, loaded, checked⟩ := exists_of_any agreeing_passes
  obtain ⟨step, planned⟩ := Bool.and_eq_true_iff.mp checked
  obtain ⟨⟨j, s⟩, only, step⟩ := (Option.any_eq_true _ _).mp step
  obtain ⟨plan, made, one⟩ := exists_of_any planned
  simp only [Bool.and_eq_true, decide_eq_true_eq] at step
  obtain ⟨⟨keepsFiles, sameEnv⟩, given⟩ := step
  obtain ⟨jobs, steps⟩ := onlyStep?_eq_some only
  refine ⟨w, plan, loaded, made, by simpa using one, ?_⟩
  rintro ⟨j', planned⟩ paired
  obtain rfl : j' = j := by simpa [jobs] using (List.of_mem_zip paired).1
  have alone : j'.steps = [] ++ [s] := steps
  refine rendered_key_eq_input loaded made paired alone (by simp) keepsFiles given (by decide) ?_
  intro property _ value here
  rw [← sameEnv, here]
  rfl

/-- A step that keeps files and gives a variable of its key a value that the job does not give. -/
def overriding : List UInt8 :=
  ("jobs: \x7bt: \x7bruns-on: linux, steps: [\x7buses: actions/cache, env: \x7bV: b\x7d, "
    ++ "with: \x7bkey: 'k-$\x7b\x7b env.V \x7d\x7d'\x7d\x7d]\x7d\x7d").toList.map fun c => UInt8.ofNat c.toNat

/-- The keys of the instances of a plan, each with the input of the first step. -/
def keysWithInputs (plan : Plan) : List (Option Text × Option Text) :=
  plan.instances.map fun p => (p.key.rendered, p.steps[0]?.bind fun t => t.inputs.get? "key")

theorem overriding_passes :
    (document {} (onlyFile overriding) (.ofText "w.yml") []).toOption.any (fun w =>
      ((onlyStep? w).any fun (_, s) => s.keepsFiles) &&
      (w.plan {} none).toOption.any fun plan => decide (keysWithInputs plan =
        [(some (Text.ofString "k-"), some (Text.ofString "k-b"))])) = true := by
  decide +kernel

/-- The key of an instance shows nothing of the environment of the step. -/
theorem overriding_rendered_key_ne_input :
    ∃ w j s plan, document {} (onlyFile overriding) (.ofText "w.yml") [] = .ok w ∧
      onlyStep? w = some (j, s) ∧ s.keepsFiles = true ∧ w.plan {} none = .ok plan ∧
      keysWithInputs plan = [(some (Text.ofString "k-"), some (Text.ofString "k-b"))] := by
  obtain ⟨w, loaded, checked⟩ := exists_of_any overriding_passes
  obtain ⟨step, planned⟩ := Bool.and_eq_true_iff.mp checked
  obtain ⟨⟨j, s⟩, only, keepsFiles⟩ := (Option.any_eq_true _ _).mp step
  obtain ⟨plan, made, keys⟩ := exists_of_any planned
  exact ⟨w, j, s, plan, loaded, only, keepsFiles, made, of_decide_eq_true keys⟩

end Load

end JobMatrix
