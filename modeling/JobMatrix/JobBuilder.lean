import JobMatrix.Job

set_option autoImplicit false

/-!
Jobs made call by call. A builder gathers what the calls say; building checks and leaves the
builder as it is.
-/

namespace JobMatrix

structure JobBuilder where
  name : Value
  platform : Value := .null
  steps : List Step := []
  /-- Axes in the order of the calls, repetitions included. -/
  axes : List (Value × List Value) := []
  env : Entries Text := []
  failFast : Value := .bool true
  cache : Option CacheSpec := none

namespace JobBuilder

def declaredAxes (b : JobBuilder) : List (Value × Value) :=
  b.axes.map fun a => (a.1, .list a.2)

/-- The job that the calls so far describe. -/
def build (b : JobBuilder) : Except Failure Job := do
  if b.platform.isNull then throw (.invalid { complaint := .platformUnset, job := b.name })
  if b.steps.isEmpty then throw (.invalid { complaint := .stepsUnset, job := b.name })
  let matrix ← if b.axes.isEmpty then pure none
    else some <$> Matrix.ofPairs b.name b.declaredAxes
  Job.make b.name b.platform b.steps matrix (b.env.map fun e => (.text e.1, .text e.2)) b.failFast
    b.cache

inductive Call where
  | runsOn (platform : Value)
  | defineStep (name run cwd shell : Value)
  | useAction (name action : Value) (inputs : Entries Value)
  | withAxis (axis : Value) (values : List Value)
  | withEnv (env : Entries Value)
  | failFast (enabled : Value)
  | cache (paths : List Value) (key : Value)
  | build

def apply (b : JobBuilder) : Call → Except Failure JobBuilder
  | .runsOn platform => .ok { b with platform }
  | .defineStep name run cwd shell =>
    .ok { b with steps := b.steps ++ [Step.command name run cwd shell] }
  | .useAction name action inputs => do
    let step ← Step.action name action inputs
    return { b with steps := b.steps ++ [step] }
  | .withAxis axis values => .ok { b with axes := b.axes ++ [(axis, values)] }
  | .withEnv env => do
    let texts ← env.mapM fun p => return (p.1, ← p.2.scalar)
    return { b with env := b.env.update texts }
  | .failFast enabled => .ok { b with failFast := enabled }
  | .cache paths key => .ok { b with cache := some ⟨paths, key⟩ }
  | .build => do
    let _ ← b.build
    return b

/-! ### Calls by name -/

inductive Operation where
  | runsOn
  | defineStep
  | useAction
  | withAxis
  | withEnv
  | failFast
  | cache
  | build
  deriving DecidableEq, Repr

namespace Operation

def name : Operation → String
  | .runsOn => "runs_on"
  | .defineStep => "define_step"
  | .useAction => "use_action"
  | .withAxis => "with_axis"
  | .withEnv => "with_env"
  | .failFast => "fail_fast"
  | .cache => "cache"
  | .build => "build"

def all : List Operation :=
  [.runsOn, .defineStep, .useAction, .withAxis, .withEnv, .failFast, .cache, .build]

def named? (name : Text) : Option Operation := all.find? fun o => Text.ofString o.name == name

/-- The builder itself is the first parameter of every operation. -/
def signature (o : Operation) : Signature :=
  let takes (required optional : List String) : Signature :=
    { operation := "JobBuilder." ++ o.name
      required := ("self" :: required).map Text.ofString
      optional := optional.map Text.ofString }
  match o with
  | .runsOn => takes ["platform"] []
  | .defineStep => takes ["name", "run"] ["cwd", "shell"]
  | .useAction => { takes ["name", "action"] [] with takesOthers := true }
  | .withAxis => { takes ["axis"] [] with takesMore := true }
  | .withEnv => { takes [] [] with takesOthers := true }
  | .failFast => takes [] ["enabled"]
  | .cache => { takes [] [] with takesMore := true, optionalNamed := ["key"].map Text.ofString }
  | .build => takes [] []

end Operation

/-- What a call says whose arguments have found their parameters. -/
def Call.ofBinding (o : Operation) (b : Binding Value) : Call :=
  let given (name : String) : Value := (b.given.get? name).getD .null
  match o with
  | .runsOn => .runsOn (given "platform")
  | .defineStep => .defineStep (given "name") (given "run") (given "cwd") (given "shell")
  | .useAction => .useAction (given "name") (given "action") b.others
  | .withAxis => .withAxis (given "axis") b.more
  | .withEnv => .withEnv b.others
  | .failFast => .failFast ((b.given.get? "enabled").getD (.bool true))
  | .cache => .cache b.more (given "key")
  | .build => .build

/-- Names of arguments, which have to be texts. -/
def argumentNames (named : List (Value × Value)) : Except CallFault (Entries Value) :=
  named.mapM fun a => match a.1 with
    | .text name => .ok (name, a.2)
    | _ => .error .nameless

/-- Reads a call of an operation by its name. -/
def Call.read (b : JobBuilder) (operation : Text) (arguments : List Value)
    (named : List (Value × Value)) : Except Failure Call :=
  match Operation.named? operation with
  | none => .error .noOperation
  | some o =>
    -- The builder stands in the first place under its name.
    match (argumentNames named).bind (o.signature.bind (b.name :: arguments)) with
    | .ok binding => .ok (Call.ofBinding o binding)
    | .error fault => .error (.call fault)

end JobBuilder

end JobMatrix
