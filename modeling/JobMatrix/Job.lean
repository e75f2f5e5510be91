import JobMatrix.Matrix
import JobMatrix.Value.Reading

set_option autoImplicit false

/-!
Jobs: where they run, their steps, their matrix and what they keep between runs. What a declaration
says is kept as it is: a value of any kind, null where it says nothing. A job checks its name, its
steps and its matrix; whether its other values are of use is seen where they are used.
-/

namespace JobMatrix

structure Step where
  name : Value
  run : Value := .null
  uses : Value := .null
  inputs : Entries Text := []
  shell : Value := .null
  cwd : Value := .null
  env : Entries Text := []
  deriving Repr

/-- What a job keeps between runs: paths, and a template for the key. -/
structure CacheSpec where
  paths : List Value := []
  key : Value := .null
  deriving Repr

structure Job where
  name : Text
  platform : Value
  steps : List Step := []
  matrix : Option (List Axis) := none
  env : Entries Text := []
  /-- What a failed instance does to the others, for those who run them. -/
  failFast : Value := .bool true
  cache : Option CacheSpec := none
  deriving Repr

namespace Step

/-- A step that runs a command. Without one it is indefinite, which no job takes. -/
def command (name run cwd shell : Value) : Step := { name, run, cwd, shell }

/-- A call that makes a step: its name and its action, and all other arguments are inputs. -/
def actionSignature : Signature where
  operation := "uses"
  required := ["name", "action"].map Text.ofString
  takesOthers := true

/-- A step that uses an action, with inputs in scalar form. -/
def action (name uses : Value) (inputs : Entries Value) : Except Failure Step := do
  match actionSignature.bind [name, uses] inputs with
  | .error fault => throw (.call fault)
  | .ok _ => pure ()
  let texts ← inputs.mapM fun p => return (p.1, ← p.2.scalar)
  return { name, uses, inputs := Entries.ofPairs texts }

/-- A step has a command or an action, and not both. -/
def isDefinite (s : Step) : Bool := s.run.isNull != s.uses.isNull

/-- The step with a working directory, if it runs a command and has none. -/
def withDefaultCwd (cwd : Value) (s : Step) : Step :=
  if s.cwd.isNull && !s.run.isNull then { s with cwd } else s

end Step

/-- A name is a text with more than blanks. -/
def jobName (name : Value) : Except Failure Text :=
  match name with
  | .text s => if Text.isBlankText s then .error (.invalid { complaint := .jobUnnamed }) else .ok s
  | _ => .error (.invalid { complaint := .jobUnnamed })

def checkSteps (job : Value) (steps : List Step) : Except Failure Unit :=
  match steps.find? fun s => !s.isDefinite with
  | some s =>
    if s.name.literal?.isSome then .error (.invalid { complaint := .stepAmbiguous s.name, job })
    else .error .longInteger
  | none => .ok ()

/-- A job from its parts, checked in this order: name, environment, steps, matrix. -/
def Job.make (name platform : Value) (steps : List Step) (matrix : Option Matrix)
    (env : List (Value × Value)) (failFast : Value) (cache : Option CacheSpec) :
    Except Failure Job := do
  let text ← jobName name
  let env ← scalarEntries env
  checkSteps name steps
  let matrix ← matrix.mapM (·.check name)
  return { name := text, platform, steps, matrix, env, failFast, cache }

/-- A matrix that is there already, or a declaration that the job is to make one of. -/
inductive MatrixSource where
  | ready (m : Matrix)
  | declared (pairs : List (Value × Value))

def MatrixSource.matrix (job : Value) : MatrixSource → Except Failure Matrix
  | .ready m => .ok m
  | .declared pairs => Matrix.ofPairs job pairs

/-- A job from its parts, which cannot check a declaration in place of its matrix. -/
def Job.assemble (name platform : Value) (steps : List Step) (matrix : Option MatrixSource)
    (env : List (Value × Value)) (failFast : Value) (cache : Option CacheSpec) :
    Except Failure Job :=
  match matrix with
  | none => Job.make name platform steps none env failFast cache
  | some (.ready m) => Job.make name platform steps (some m) env failFast cache
  | some (.declared _) => do
    let _ ← Job.make name platform steps none env failFast cache
    throw .noOperation

/-- A job as one writes it down. -/
structure Declaration where
  name : Value
  platform : Value
  steps : List Step
  matrix : Option MatrixSource := none
  env : List (Value × Value) := []
  failFast : Value := .bool true
  cachePaths : Value := .null
  cacheKey : Value := .null
  /-- The working directory of the commands that name none. -/
  cwd : Value := .null

/-- The cache specification of a declaration, if it speaks of paths or of a key. -/
def Declaration.cache (d : Declaration) : Except Failure (Option CacheSpec) := do
  if d.cachePaths.isNull && d.cacheKey.isNull then return none
  let paths ← if d.cachePaths.isPresent then d.cachePaths.items else pure []
  return some ⟨paths, d.cacheKey⟩

/-- The job of a declaration, which has at least one step. -/
def Declaration.job (d : Declaration) : Except Failure Job := do
  if d.steps.isEmpty then throw (.invalid { complaint := .jobWithoutSteps, job := d.name })
  let steps := if d.cwd.isNull then d.steps else d.steps.map (Step.withDefaultCwd d.cwd)
  let matrix ← d.matrix.mapM (·.matrix d.name)
  Job.make d.name d.platform steps matrix d.env d.failFast (← d.cache)

/-! ### Equality -/

/-- The values of a step that are compared as they are. -/
def Step.values (s : Step) : List Value := [s.name, s.run, s.uses, s.shell, s.cwd]

def Step.same (s t : Step) : Bool :=
  Value.sameItems s.values t.values && s.inputs.same (· == ·) t.inputs && s.env.same (· == ·) t.env

def CacheSpec.values (c : CacheSpec) : List Value := [.tuple c.paths, c.key]

/-- The values of a job that are compared as they are, besides those of its steps. -/
def Job.values (j : Job) : List Value :=
  [j.failFast, (j.cache.map fun c => .tuple c.values).getD .null]

def Job.same (j k : Job) : Bool :=
  j.name == k.name && j.platform.same k.platform && j.matrix == k.matrix
    && Value.sameItems j.values k.values && j.env.same (· == ·) k.env
    && j.steps.length == k.steps.length && (j.steps.zip k.steps).all fun p => p.1.same p.2

/-- The kind of the first value that keeps a job from being a key, if there is one. -/
def Job.unhashable? (j : Job) : Option String :=
  Value.firstUnhashable? (j.platform :: j.steps.flatMap Step.values ++ j.values)

end JobMatrix
