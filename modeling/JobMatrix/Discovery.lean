import JobMatrix.Files.Tree

set_option autoImplicit false

/-!
Finding the workflow to work on: the file that is asked for, or else the only candidate among the
documents of the workflow directory and the scripts of the current one.
-/

namespace JobMatrix

namespace Discovery

/-- How the name of a script that holds a workflow ends. -/
def scriptEnding : String := "_workflow.py"

/-- The candidates, in the order of their paths. -/
def candidates (settings : Settings) (t : FileTree) : Except FileFault (List Path) := do
  let here : Path := {}
  let folder := here.join (Path.ofText settings.workflowDir)
  let documents := if ← t.pathIsFolder folder then
      t.withSuffix folder ".yml" ++ t.withSuffix folder ".yaml"
    else []
  return (documents ++ t.withSuffix here scriptEnding).mergeSort Path.before

end Discovery

/-- Why there is no one workflow to work on. -/
inductive Undiscovered where
  | notThere (asked : Text)
  /-- There is no candidate, neither in the directory for documents nor among the scripts. -/
  | nothing (folder : Text)
  | several (first : Path) (others : List Path)
  deriving DecidableEq, Repr

namespace Undiscovered

def title : Undiscovered → String
  | .notThere _ => "Workflow file not found"
  | .nothing _ => "No workflow file found"
  | .several _ _ => "Multiple workflow files found"

def message : Undiscovered → Text
  | .notThere asked => "Could not find workflow file: " ++ asked
  | .nothing _ => "Could not find any workflow files."
  | .several _ _ => "Found multiple workflow files. Please specify which one to use:"

def details : Undiscovered → List Text
  | .notThere _ => []
  | .nothing folder => ["Looked for:", "  " ++ folder ++ "/*.yml", "  " ++ folder ++ "/*.yaml",
      "  *" ++ Discovery.scriptEnding]
  | .several first others => [Text.joined "\n" ((first :: others).map fun p => "  " ++ p.text)]

def advice : Undiscovered → Text
  | .notThere _ =>
    "Specify an existing file:\n  matrixci plan --workflow .github/workflows/test.yml"
  | .nothing _ => "Specify a workflow explicitly:\n  matrixci plan --workflow my_workflow.py"
  | .several first _ => "Specify a workflow explicitly:\n  matrixci plan --workflow " ++ first.text

end Undiscovered

/-- The path of the workflow to work on, or why there is none. Asking for the empty text is asking
for none; a path that cannot be looked up is a fault. -/
def discover (settings : Settings) (t : FileTree) (asked : Option Text) :
    Except FileFault (Except Undiscovered Path) := do
  match asked.filter fun s => !s.isEmpty with
  | some s =>
    if ← t.pathExists (Path.ofText s) then return .ok (Path.ofText s)
    else return .error (.notThere s)
  | none =>
    match ← Discovery.candidates settings t with
    | [] => return .error (.nothing settings.workflowDir)
    | [only] => return .ok only
    | first :: others => return .error (.several first others)

end JobMatrix
