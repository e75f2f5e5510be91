import JobMatrix.Workflow

set_option autoImplicit false

/-!
Workflow scripts: what executing one defines. A script gives names to workflows, lists of jobs and
functions; it can fail when it is executed, and its functions can fail when they are called.
-/

namespace JobMatrix

/-- What a script can give a name to, other than a function. -/
inductive Defined where
  | workflow (w : Workflow)
  | jobs (js : List Job)
  | other

/-- A function: its parameters, and what a call leads to. -/
structure ScriptFunction where
  signature : Signature
  body : Except Failure Defined

inductive Definition where
  | value (v : Defined)
  | function (f : ScriptFunction)

/-- What executing a script leads to. -/
abbrev Script := Except Failure (Entries Definition)

def ScriptFunction.call (f : ScriptFunction) : Except Failure Defined :=
  match f.signature.bind ([] : List Value) [] with
  | .ok _ => f.body
  | .error fault => .error (.call fault)

end JobMatrix
