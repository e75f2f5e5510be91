import JobMatrix.Files.Fault
import JobMatrix.Text.Blank

set_option autoImplicit false

/-!
Settings taken from the environment.
-/

namespace JobMatrix

/-- The values of the three variables that are read. -/
structure Environment where
  platforms : Option Text := none
  cacheScope : Option Text := none
  workflowDir : Option Text := none
  deriving DecidableEq, Repr, Inhabited

namespace Environment

def platformsVariable : String := "MATRIXCI_PLATFORMS"

def cacheScopeVariable : String := "MATRIXCI_CACHE_PREFIX"

def workflowDirVariable : String := "MATRIXCI_WORKFLOW_DIR"

/-- The environment in which the three variables were given these values, which go through the
system. -/
def ofLookup (lookup : String → Option Text) : Except FileFault Environment := do
  return ⟨← (lookup platformsVariable).mapM Text.settled,
    ← (lookup cacheScopeVariable).mapM Text.settled,
    ← (lookup workflowDirVariable).mapM Text.settled⟩

end Environment

structure Settings where
  /-- Runner labels that are accepted besides the default ones. -/
  extraPlatforms : List Text := []
  /-- What stands in front of every cache key, unless a command says otherwise. -/
  cacheScope : Option Text := none
  /-- Where workflow documents are looked for. -/
  workflowDir : Text := ".github/workflows"
  deriving DecidableEq, Repr, Inhabited

namespace Settings

/-- Labels are separated by commas; blanks around them and empty ones do not count. -/
def splitLabels (s : Text) : List Text :=
  ((s.splitAt ',').map Text.trim).filter fun label => !label.isEmpty

def ofEnvironment (env : Environment) : Settings where
  extraPlatforms := splitLabels (env.platforms.getD [])
  cacheScope := env.cacheScope.bind fun s => if s.isEmpty then none else some s
  workflowDir := env.workflowDir.getD ".github/workflows"

end Settings

end JobMatrix
