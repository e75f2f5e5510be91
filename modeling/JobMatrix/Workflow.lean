import JobMatrix.Job
import JobMatrix.Platform

set_option autoImplicit false

/-!
Workflows: named lists of jobs. Jobs have different names and run on labels that the workflow
accepts.
-/

namespace JobMatrix

structure Workflow where
  name : Value
  jobs : List Job := []
  /-- What starts the workflow, as it was given: events and their settings. -/
  triggers : Value := .map []
  platforms : List Text := []

namespace Workflow

def isLabel (labels : List Text) : Value → Bool
  | .text s => labels.contains s
  | _ => false

/-- What a job is refused with whose platform is not accepted. The platform is looked for by its hash
and then shown, and either can fail. -/
def refusal (platforms : List Text) (job : Job) : Failure :=
  match job.platform.unhashable?, job.platform.literal? with
  | some kind, _ => .unhashable kind
  | none, none => .longInteger
  | none, some _ => .invalid
    { complaint := .platformUnknown job.platform (Platform.sorted platforms), job := .text job.name }

/-- Checks the jobs in order, given the names that came before. -/
def checkJobs (platforms : List Text) : List Text → List Job → Except Failure Unit
  | _, [] => .ok ()
  | seen, job :: rest =>
    if seen.contains job.name then
      .error (.invalid { complaint := .jobRepeated, job := .text job.name })
    else if isLabel platforms job.platform then checkJobs platforms (job.name :: seen) rest
    else .error (refusal platforms job)

/-- The triggers that a value stands for: a mapping, or a list of pairs. What counts as nothing
stands for none. -/
def triggersOf (v : Value) : Except Failure (List (Value × Value)) :=
  if v.isPresent then v.entries else .ok []

/-- The labels in a value; what is no text is the label of no runner. -/
def labelsOf (v : Value) : Except Failure (List Text) := do
  let items ← v.items
  match Value.firstUnhashable? items with
  | some kind => throw (.unhashable kind)
  | none => return items.filterMap fun item => match item with
    | .text s => some s
    | _ => none

/-- A workflow that accepts `extra` labels besides those known under the settings. -/
def make (settings : Settings) (name : Value) (jobs : List Job) (triggers : Value)
    (extra : List Text) : Except Failure Workflow := do
  let platforms := Platform.known settings extra
  checkJobs platforms [] jobs
  return { name, jobs, triggers, platforms }

/-- The workflow with more labels accepted. -/
def widen (settings : Settings) (w : Workflow) (extra : List Text) : Except Failure Workflow :=
  make settings w.name w.jobs w.triggers (w.platforms ++ extra)

def job (w : Workflow) (name : Value) : Except Failure Job :=
  match w.jobs.find? fun j => (Value.text j.name).same name with
  | some j => .ok j
  | none => .error (.missing name)

/-- The accepted labels that are not accepted by default. -/
def extraPlatforms (w : Workflow) : List Text :=
  (Platform.sorted w.platforms).filter fun p => !Platform.defaults.contains p

def same (v w : Workflow) : Bool :=
  v.name.same w.name && v.jobs.length == w.jobs.length && (v.jobs.zip w.jobs).all (fun p => p.1.same p.2)
    && v.triggers.same w.triggers && Platform.sorted v.platforms == Platform.sorted w.platforms

/-- The kind of the first value that keeps a workflow from being a key, if there is one. -/
def unhashable? (w : Workflow) : Option String :=
  w.name.unhashable?.or (w.jobs.findSome? Job.unhashable?)

end Workflow

end JobMatrix
