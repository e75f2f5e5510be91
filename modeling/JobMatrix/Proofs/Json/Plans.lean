import JobMatrix.Proofs.Json.Serialisable
import JobMatrix.Proofs.Workflow.Typed

set_option autoImplicit false

/-!
Plans as JSON. What is rendered for a plan and what was made for it are texts and numbers; some values
of a workflow are passed on as they were given, and of these the triggers alone are meant to be
anything. A plan has a JSON form when what was passed on has one.
-/

namespace JobMatrix

namespace Value

end Value

open Value

end JobMatrix
