import JobMatrix.Workflow
import JobMatrix.Text.Blank

set_option autoImplicit false

/-!
Workflows as documents write them, once their shape has been checked, and the workflows that they
stand for.
-/

namespace JobMatrix

structure StepForm where
  name : Option Text := none
  run : Option Text := none
  uses : Option Text := none
  inputs : Entries Value := []
  shell : Option Text := none
  cwd : Option Text := none
  env : Entries Value := []

structure StrategyForm where
  failFast : Bool := true
  matrix : Option (Entries Value) := none

/-- Where a job runs: one label, or labels of which the first known one is taken. -/
inductive RunnerForm where
  | label (label : Text)
  | labels (labels : List Text)
  deriving DecidableEq, Repr

structure JobForm where
  runner : RunnerForm
  strategy : Option StrategyForm := none
  env : Entries Value := []
  steps : List StepForm

/-- What starts a workflow: one event, events, or events with their settings. -/
inductive TriggerForm where
  | nothing
  | event (name : Text)
  | events (names : List Value)
  | settings (entries : List (Value × Value))

structure WorkflowForm where
  name : Option Text := none
  triggers : TriggerForm := .nothing
  jobs : Entries JobForm

/-- A text that is there and not empty. -/
def given? (s : Option Text) : Option Text :=
  s.bind fun t => if t.isEmpty then none else some t

namespace StepForm

/-- The name of a step: the given one, or its command up to the end of the first line, or its
action. -/
def title (s : StepForm) : Except Failure Text :=
  match given? s.name, given? s.run with
  | some name, _ => .ok name
  | none, some run =>
    match Text.lines (Text.trim run) with
    | first :: _ => .ok ("Run " ++ first)
    | [] => .error .blankCommand
  | none, none => .ok ((given? s.uses).getD ("<unnamed-step>" : String))

/-- Entries with their values in scalar form. -/
def scalars (entries : Entries Value) : Except Failure (Entries Text) := do
  return Entries.ofPairs (← entries.mapM fun e => return (e.1, ← e.2.scalar))

def step (s : StepForm) : Except Failure Step := do
  let name ← s.title
  let inputs ← scalars s.inputs
  let env ← scalars s.env
  return { name := .text name, run := .ofText? s.run, uses := .ofText? s.uses, inputs,
           shell := .ofText? s.shell, cwd := .ofText? s.cwd, env }

/-- The action that keeps files between runs. -/
def cacheAction : String := "actions/cache"

/-- Whether the action of a step, up to its version, is the one that keeps files. -/
def isCache (s : StepForm) : Bool :=
  match given? s.uses with
  | some action => action.takeWhile (· != .char '@') == Text.ofString cacheAction
  | none => false

/-- The lines of a text that are not blank, without the blanks around them. -/
def pathLines (text : Text) : List Text :=
  ((Text.lines text).map Text.trim).filter fun line => !line.isEmpty

def cacheSpec (s : StepForm) : Except Failure CacheSpec := do
  let paths ← ((s.inputs.get? "path").getD .null).scalar
  let key ← match s.inputs.get? "key" with
    | none | some .null => pure .null
    | some v => pure (.text (← v.scalar))
  return ⟨(pathLines paths).map .text, key⟩

/-- What the first step that keeps files is told to keep. -/
def cacheOf (steps : List StepForm) : Except Failure (Option CacheSpec) :=
  (steps.find? isCache).mapM cacheSpec

end StepForm

namespace JobForm

/-- The first label that is known, else the first label. -/
def platform (known : List Text) : RunnerForm → Text
  | .label label => label
  | .labels labels => ((labels.find? known.contains).or labels.head?).getD []

/-- Keys of a matrix that are no axes and that nothing is made of. -/
def reservedAxes : List String := ["include", "exclude"]

/-- The matrix of a job, without reserved keys. -/
def matrix (path name : Text) (axes : Entries Value) : Except Failure Matrix :=
  match reservedAxes.filter fun (key : String) => (axes.get? key).isSome with
  | [] => Matrix.ofPairs (.text name) (axes.map fun a => (.text a.1, a.2))
  | keys => .error (.unloadable { path, obstacle := .matrixKeys name keys })

def job (path name : Text) (known : List Text) (form : JobForm) : Except Failure Job := do
  let matrix ← (form.strategy.bind StrategyForm.matrix).mapM (matrix path name)
  let steps ← form.steps.mapM StepForm.step
  let env ← StepForm.scalars form.env
  let cache ← StepForm.cacheOf form.steps
  Job.make (.text name) (.text (platform known form.runner)) steps matrix
    (env.map fun e => (.text e.1, .text e.2))
    (.bool ((form.strategy.map StrategyForm.failFast).getD true)) cache

end JobForm

/-- Triggers as a mapping from events to their settings, which are null when there are none. -/
def TriggerForm.entries : TriggerForm → Except Failure (List (Value × Value))
  | .nothing => .ok []
  | .event name => .ok [(.text name, .null)]
  | .events names => do
    let texts ← names.mapM fun v => match v.plain? with
      | some s => .ok s
      | none => .error .longInteger
    return (Entries.ofPairs (texts.map fun s => (s, Value.null))).map fun e => (.text e.1, e.2)
  | .settings entries => .ok entries

/-- The workflow that a form stands for. `path` is where it was read, `stem` the name it has when
it gives none, and `extra` are labels accepted besides the known ones. -/
def WorkflowForm.workflow (settings : Settings) (path stem : Text) (extra : List Text)
    (form : WorkflowForm) : Except Failure Workflow := do
  let known := Platform.known settings extra
  let jobs ← form.jobs.mapM fun j => j.2.job path j.1 known
  let triggers ← form.triggers.entries
  Workflow.make settings (.text ((given? form.name).getD stem)) jobs (.map triggers) extra

end JobMatrix
