import JobMatrix.CacheKey

set_option autoImplicit false

/-!
Plans: all that is needed to schedule the instances of a workflow, and the form in which a plan
is handed on.
-/

namespace JobMatrix

structure PlannedInstance where
  inst : Instance
  os : Text
  key : CacheKey
  steps : List Step
  env : Entries Text
  failFast : Value
  cachePaths : List Value

structure Plan where
  workflow : Value
  triggers : List (Value × Value)
  jobs : Entries (List PlannedInstance)

/-- An instance of a job with its key, planned. -/
def Job.planInstance (j : Job) (inst : Instance) (key : CacheKey) : Except Failure PlannedInstance := do
  return { inst, os := ← inst.os, key, steps := ← j.renderedSteps inst, env := j.env,
           failFast := j.failFast, cachePaths := (j.cache.map CacheSpec.paths).getD [] }

/-- The plan of a job: all keys are resolved before a step is rendered. -/
def Job.plan (j : Job) (scope : Option Text) : Except Failure (List PlannedInstance) := do
  (← j.cacheKeys scope).mapM fun (inst, key) => j.planInstance inst key

/-- The plan of a workflow. Without a scope of its own it takes that of the settings. -/
def Workflow.plan (settings : Settings) (w : Workflow) (scope : Option Text) :
    Except Failure Plan := do
  let scope := scope.or settings.cacheScope
  let jobs ← w.jobs.mapM fun j => do return (j.name, ← j.plan scope)
  return { workflow := w.name, triggers := ← w.triggers.entries, jobs }

def Plan.instances (p : Plan) : List PlannedInstance := p.jobs.flatMap Prod.snd

def Value.record (members : Entries Value) : Value := .map (members.map fun m => (.text m.1, m.2))

def Value.ofEntries (entries : Entries Text) : Value :=
  .record (entries.map fun e => (e.1, .text e.2))

def member (name : String) (v : Value) : Entries Value := [(name, v)]

/-- A member for a value, unless it is null. -/
def optionalMember (name : String) (v : Value) : Entries Value :=
  if v.isNull then [] else member name v

/-- A member for entries, unless there is none. -/
def entriesMember (name : String) (entries : Entries Text) : Entries Value :=
  if entries.isEmpty then [] else member name (.ofEntries entries)

def Step.toValue (s : Step) : Value :=
  .record (member "name" s.name ++ optionalMember "run" s.run ++ optionalMember "uses" s.uses
    ++ entriesMember "with" s.inputs ++ optionalMember "shell" s.shell
    ++ optionalMember "cwd" s.cwd ++ entriesMember "env" s.env)

def PlannedInstance.toValue (p : PlannedInstance) : Value :=
  .record [
    ("job", .text p.inst.job),
    ("label", .text p.inst.label),
    ("index", .int p.inst.index),
    ("platform", p.inst.platform),
    ("runner_os", .text p.os),
    ("matrix", .ofEntries p.inst.cells),
    ("fail_fast", p.failFast),
    ("env", .ofEntries p.env),
    ("cache", .record (member "key" (.text p.key.value) ++ member "digest" (.text p.key.digest)
      ++ member "paths" (.list p.cachePaths)
      ++ optionalMember "rendered_key" (.ofText? p.key.rendered))),
    ("steps", .list (p.steps.map Step.toValue))]

def Plan.toValue (p : Plan) : Value :=
  .record [
    ("workflow", p.workflow),
    ("triggers", .map p.triggers),
    ("jobs", .record (p.jobs.map fun j => (j.1, .list (j.2.map PlannedInstance.toValue))))]

/-- The JSON form of a plan. Where all else is text, only its triggers can stand in the way of one. -/
def Plan.toJson (p : Plan) : Except JsonFault Json := p.toValue.toJson

end JobMatrix
