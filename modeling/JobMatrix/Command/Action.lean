import JobMatrix.Command.Option
import JobMatrix.Settings
import JobMatrix.Files.Fault

set_option autoImplicit false

/-!
What the program can be asked to do, and with which options.
-/

namespace JobMatrix

inductive Action where
  | validate
  | expand
  | keys
  | plan
  deriving DecidableEq, Repr

namespace Action

def all : List Action := [.expand, .keys, .plan, .validate]

def name : Action → String
  | .validate => "validate"
  | .expand => "expand"
  | .keys => "keys"
  | .plan => "plan"

def named? (name : Text) : Option Action := all.find? fun a => Text.ofString a.name == name

def summary : Action → String
  | .validate => "Load and validate a workflow."
  | .expand => "List the job instances the matrix expands into."
  | .keys => "Print the cache key of every job instance."
  | .plan => "Expand, resolve cache keys and render steps for every instance."

end Action

namespace OptionRule

def help : OptionRule := { name := "--help", summary := "Show this message and exit." }

def debug : OptionRule where
  name := "--debug"
  summary := "Enable debug mode (show stack traces and detailed output)"

def workflow : OptionRule where
  name := "--workflow"
  value := some "TEXT"
  summary := "Workflow file (.yml/.yaml/.py); discovered under " ++ ({} : Settings).workflowDir.shown
    ++ " if omitted"

def platform : OptionRule where
  name := "--platform"
  value := some "TEXT"
  summary := "Extra runner label to accept (repeatable)"

def job : OptionRule := { name := "--job", value := some "TEXT", summary := "Only show this job" }

def scope : OptionRule where
  name := "--prefix"
  value := some "TEXT"
  summary := "Cache key namespace (defaults to " ++ Environment.cacheScopeVariable ++ ")"

def json (what : String) : OptionRule := { name := "--json", summary := "Print " ++ what ++ " as JSON" }

def output : OptionRule where
  name := "--output"
  letter := some 'o'
  value := some "FILE"
  summary := "Write the JSON plan to a file"

end OptionRule

def Action.options : Action → List OptionRule
  | .validate => [.workflow, .platform, .help]
  | .expand => [.workflow, .platform, .job, .help]
  | .keys => [.workflow, .platform, .scope, .json "keys", .help]
  | .plan => [.workflow, .platform, .scope, .json "the plan", .output, .help]

/-- The options in front of an action. -/
def commonOptions : List OptionRule := [.debug, .help]

/-- An action with what was said about it. -/
structure Request where
  action : Action
  debug : Bool := false
  workflow : Option Text := none
  platforms : List Text := []
  job : Option Text := none
  scope : Option Text := none
  json : Bool := false
  output : Option Text := none
  deriving DecidableEq, Repr

/-- Why a command line leads to no request. A page belongs to an action or to the whole program. -/
inductive Refusal where
  | help (page : Option Action)
  /-- There is nothing on the command line. -/
  | nothingAsked
  | misuse (page : Option Action) (m : Misuse)
  /-- A value that no file can be named by. -/
  | unusable (fault : FileFault)
  deriving DecidableEq, Repr

namespace Request

def orMisuse {α : Type} (page : Option Action) : Except Misuse α → Except Refusal α
  | .ok a => .ok a
  | .error m => .error (.misuse page m)

/-- Reads what follows the name of an action. A request for help goes before the faults that only
the values and the other arguments have. -/
def readAction (isFolder : Text → Except FileFault Bool) (debug : Bool) (action : Action) (args : List Text) :
    Except Refusal Request := do
  let a ← orMisuse (some action) (Arguments.read action.options true args)
  if a.has "--help" then throw (.help (some action))
  let output := a.last? "--output"
  match output with
  | some path =>
    if ← (isFolder path).mapError .unusable then
      throw (.misuse (some action) (.outputIsFolder path))
  | none => pure ()
  if !a.others.isEmpty then throw (.misuse (some action) (.extraArguments a.others))
  return { action, debug, workflow := a.last? "--workflow", platforms := a.all "--platform",
           job := a.last? "--job", scope := a.last? "--prefix", json := a.has "--json", output }

/-- Reads the options in front of an action; help goes before everything that follows. -/
def readCommon (args : List Text) : Except Refusal Arguments := do
  let a ← orMisuse none (Arguments.read commonOptions false args)
  if a.has "--help" then throw (.help none)
  return a

/-- Reads a command line. What stands where an action is expected and is none is read as an option
once more, as two dashes may stand before it, until it is called an unknown name. -/
def read (isFolder : Text → Except FileFault Bool) (args : List Text) : Except Refusal Request := do
  if args.isEmpty then throw .nothingAsked
  let a ← readCommon args
  match a.others with
  | [] => throw (.misuse none .commandMissing)
  | name :: rest =>
    match Action.named? name with
    | some action => readAction isFolder (a.has "--debug") action rest
    | none =>
      let _ ← readCommon a.others
      throw (.misuse none (.noSuchCommand name
        (Text.similarWords name (Action.all.map fun a => a.name))))

end Request

end JobMatrix
