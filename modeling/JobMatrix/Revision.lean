import JobMatrix.Workflow

set_option autoImplicit false

/-!
Jobs, workflows and matrices made anew with some of their fields changed. Fields that are not named
stay as they are; the result is checked like any new one. Steps, jobs, matrices and cache
specifications are no values, so that a value can only take them away.
-/

namespace JobMatrix

namespace Revision

/-- The changes by field, all of which have to be fields of what is changed. -/
def changesOf (owner : String) (fields : List String) (changes : Entries Value) :
    Except Failure (Entries Value) :=
  -- What is made stands in the first place.
  let signature : Signature :=
    { operation := owner ++ ".__init__", required := ["self"].map Text.ofString,
      optional := fields.map Text.ofString }
  match signature.bind [.null] changes with
  | .ok b => .ok b.given
  | .error fault => .error (.call fault)

/-- Whether a value in place of a list has elements. -/
def hasItems : Option Value → Except Failure Bool
  | none => .ok false
  | some v => return !(← v.items).isEmpty

/-- The environment of a revised job: the old one, or the entries of a mapping. -/
def envOf (old : Entries Text) : Option Value → Except Failure (List (Value × Value))
  | none => .ok (old.map fun e => (.text e.1, .text e.2))
  | some (.map entries) => .ok entries
  | some _ => .error .noOperation

end Revision

open Revision

/-- The job with some fields changed. -/
def Job.revised (j : Job) (changes : Entries Value) : Except Failure Job := do
  let changes ← changesOf "Job"
    ["name", "platform", "steps", "matrix", "env", "fail_fast", "cache"] changes
  let name := (changes.get? "name").getD (.text j.name)
  let _ ← jobName name
  let steps := changes.get? "steps"
  let foreignSteps ← hasItems steps
  let env ← envOf j.env (changes.get? "env")
  let _ ← scalarEntries env
  if foreignSteps then throw .noOperation
  let matrix := match changes.get? "matrix" with
    | none => j.matrix.map fun axes => .ready (.ofAxes axes)
    | some .null => none
    | some _ => some (.declared [])
  let cache := changes.get? "cache"
  let job ← Job.assemble name ((changes.get? "platform").getD j.platform)
    (if steps.isSome then [] else j.steps) matrix env
    ((changes.get? "fail_fast").getD j.failFast) (if cache.isSome then none else j.cache)
  match cache with
  | none | some .null => return job
  | some _ => throw .noOperation

/-- The workflow with some fields changed; its labels are accepted besides those known under the
settings. -/
def Workflow.revised (settings : Settings) (w : Workflow) (changes : Entries Value) :
    Except Failure Workflow := do
  let changes ← changesOf "Workflow" ["name", "jobs", "triggers", "platforms"] changes
  let jobs := changes.get? "jobs"
  let foreignJobs ← hasItems jobs
  let platforms ← (changes.get? "platforms").elim (pure w.platforms) labelsOf
  if foreignJobs then throw .noOperation
  make settings ((changes.get? "name").getD w.name) (if jobs.isSome then [] else w.jobs)
    ((changes.get? "triggers").getD w.triggers) platforms

/-- An axis that is written as a pair of its name and its values. -/
def Matrix.axisOfPair (v : Value) : Except Failure (Value × List Text) := do
  match ← v.items with
  | [name, values] => return (name, (← values.items).map Value.shown)
  | _ => throw (.notIterable v.typeName)

/-- The matrix with its axes changed, which are taken as they are. -/
def Matrix.revised (m : Matrix) (changes : Entries Value) : Except Failure Matrix := do
  let changes ← changesOf "Matrix" ["axes"] changes
  match changes.get? "axes" with
  | none => return m
  | some v => return ⟨← (← v.items).mapM Matrix.axisOfPair⟩

end JobMatrix
