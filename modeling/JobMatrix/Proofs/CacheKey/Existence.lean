import JobMatrix.Proofs.CacheKey.Agreement
import JobMatrix.Proofs.Placeholder.Variables

set_option autoImplicit false

/-!
What has a key, and what has a plan. The texts that a key is made of need bytes, and what is rendered
for a plan needs to be text. Nothing else stands in the way of either, from one instance to all of a
workflow.
-/

namespace JobMatrix

namespace Text

end Text

namespace CacheKey

end CacheKey

/-! ### Instances -/

/-- The texts that the key of an instance is made of have bytes. -/
structure Instance.EncodableIn (i : Instance) (scope : Option Text) : Prop where
  platform : ∀ label, i.platform = .text label → label.Encodable
  cells : ∀ cell ∈ i.assignment, cell.1.Encodable ∧ cell.2.Encodable
  scope : ∀ s ∈ scope, s.Encodable

/-- What an instance needs for a key: a platform by its label, a declared template that is text if it
counts as something, and texts that have bytes. -/
structure Instance.Keyable (i : Instance) (scope : Option Text) (template : Value) : Prop where
  labelled : ∃ label, i.platform = .text label
  template : template.isPresent = true → ∃ t, template = .text t
  encodable : i.EncodableIn scope

theorem Instance.exists_os {i : Instance} {label : Text} (labelled : i.platform = .text label) :
    ∃ os, i.os = .ok os :=
  ⟨Platform.os label, by rw [Instance.os, labelled, Platform.osOf]⟩

namespace Job

variable {j : Job} {scope : Option Text}

/-- The template of the key that the job declares, null without one. -/
def template (j : Job) : Value := (j.cache.map CacheSpec.key).getD .null

/-- Each instance of the job has a key. -/
def Keyable (j : Job) (scope : Option Text) : Prop :=
  ∀ i ∈ j.instances, i.Keyable scope j.template

theorem exists_renderedSteps_iff {i : Instance} {label : Text} (labelled : i.platform = .text label) :
    (∃ steps, j.renderedSteps i = .ok steps) ↔ ∀ s ∈ j.steps, s.Renderable := by
  simp only [renderedSteps, exists_mapM_eq_ok_iff, Step.exists_rendered_iff]
  exact forall₂_congr fun s _ => and_iff_right (Instance.exists_os labelled)

end Job

namespace Workflow

variable {w : Workflow} {scope : Option Text}

def Keyable (w : Workflow) (scope : Option Text) : Prop := ∀ j ∈ w.jobs, j.Keyable scope

end Workflow

end JobMatrix
