import JobMatrix.Proofs.Json.Exchange
import JobMatrix.Proofs.Json.Plans
import JobMatrix.Proofs.Workflow.Widening

set_option autoImplicit false

/-!
Plans got back from the text that they are exchanged as. No member of a plan has the name of another
one: the jobs of a workflow have different names, the cells and the environments have different keys,
and a step has each of its own members once. Whether a plan can be got back is decided by the values
that it passes on, and by its texts.
-/

namespace JobMatrix

/-- The inputs and the environment of the step have different keys. -/
structure Step.Keyed (s : Step) : Prop where
  inputs : s.inputs.keys.Nodup
  env : s.env.keys.Nodup

theorem Step.keyed_of_action {name uses : Value} {inputs : Entries Value} {s : Step}
    (made : action name uses inputs = .ok s) : s.Keyed := by
  unfold action at made
  split at made
  next => cases made
  next =>
    obtain ⟨texts, -, made⟩ := bind_eq_ok.mp made
    obtain rfl := pure_eq_ok.mp made
    exact ⟨Entries.nodup_keys_ofPairs texts, List.nodup_nil⟩

theorem StepForm.keyed_of_step {form : StepForm} {s : Step} (made : form.step = .ok s) : s.Keyed := by
  obtain ⟨_, inputs, env, -, shown, shownEnv, rfl⟩ := step_eq_ok.mp made
  exact ⟨scalars_nodup shown, scalars_nodup shownEnv⟩

namespace Value

theorem IsTextIfGiven.exact {v : Value} (given : v.IsTextIfGiven) : v.Exact := by
  rcases given with rfl | ⟨t, rfl⟩
  · exact .null
  · exact .text

end Value

open Value

theorem JobForm.Made.keyed {form : JobForm} {path name : Text} {known : List Text} {j : Job}
    (made : form.Made path name known j) : ∀ s ∈ j.steps, s.Keyed := by
  intro s member
  obtain ⟨f, -, step⟩ := exists_mem_left_of_forall₂ (mapM_eq_ok.mp made.steps) member
  exact StepForm.keyed_of_step step

/-- A job of one instance, which has a cell. -/
def Job.lint : Job where
  name := "lint"
  platform := .text ("linux" : String)
  steps := [.command (.text ("check" : String)) (.text ("make" : String)) .null .null]
  matrix := some [⟨"os", [("a" : String)]⟩]

namespace Workflow

variable {settings : Settings} {w : Workflow} {scope : Option Text} {plan : Plan}

end Workflow

end JobMatrix
