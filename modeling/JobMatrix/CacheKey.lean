import JobMatrix.Placeholder
import JobMatrix.Text.Percent
import JobMatrix.Digest

set_option autoImplicit false

/-!
Cache scopes of instances. The readable key is made of the scope in front, the platform and the
assignment, all percent-escaped, so that the delimiters can come from the composition alone. The
digest is that of the same data as JSON. Texts that have no bytes have no key.
-/

namespace JobMatrix

structure CacheKey where
  value : Text
  digest : String
  /-- The key that the job declares, rendered. -/
  rendered : Option Text
  payload : Json
  deriving Repr

namespace CacheKey

/-- The version of the composition; it is part of every digest. -/
def version : Nat := 1

def escaped (t : Text) : Except Failure Text := (Text.percentEscape t).mapError .unencodable

def cellPart (cell : Text × Text) : Except Failure Text := do
  return (← escaped cell.1) ++ .char '=' :: (← escaped cell.2)

/-- An empty scope counts as none. -/
def scopeParts (scope : Option Text) : List Text :=
  match scope with
  | some s => if s.isEmpty then [] else [s]
  | none => []

def compose (platform : Text) (assignment : List (Text × Text)) (scope : Option Text) :
    Except Failure Text := do
  let front ← (scopeParts scope ++ [platform]).mapM escaped
  return Text.joined [.char '|'] (front ++ (← assignment.mapM cellPart))

/-- What the digest is taken of, with the members in order of their names. -/
def payloadOf (platform : Text) (assignment : List (Text × Text)) (scope : Option Text) : Json :=
  .object [
    ("assignment", .array (assignment.map fun cell => .array [.string cell.1, .string cell.2])),
    ("platform", .string platform),
    ("prefix", match scope with
      | some s => .string s
      | none => .null),
    ("v", .number (toString version))]

/-- The text of a payload that the digest is taken of. -/
def stableText (payload : Json) : Text := payload.line .tight

/-- A value as a part of a key, which has to be a text. -/
def partText : Value → Except Failure Text
  | .text label => .ok label
  | .bytes bs => .error (.json (.unsupported (Value.bytes bs).kindName))
  | _ => .error .labelNotText

/-- The declared template, rendered, unless it counts as nothing. -/
def renderTemplate (i : Instance) (template : Value) (env : Entries Text) :
    Except Failure (Option Text) := do
  if template.isPresent then
    let context ← i.context env
    return some (render context (← template.readable))
  else return none

def resolve (i : Instance) (scope : Option Text) (template : Value) (env : Entries Text) :
    Except Failure CacheKey := do
  let rendered ← renderTemplate i template env
  let platform ← partText i.platform
  let value ← compose platform i.assignment scope
  let payload := payloadOf platform i.assignment scope
  let bytes ← (Text.encodeUtf8 (stableText payload)).mapError .unencodable
  return { value, digest := Digest.sha256 bytes, rendered, payload }

def short (k : CacheKey) : String := String.ofList (k.digest.toList.take 12)

end CacheKey

def Job.cacheKeys (j : Job) (scope : Option Text) : Except Failure (List (Instance × CacheKey)) :=
  let template := (j.cache.map CacheSpec.key).getD .null
  j.instances.mapM fun i => do return (i, ← CacheKey.resolve i scope template j.env)

def Workflow.cacheKeys (w : Workflow) (scope : Option Text) :
    Except Failure (Entries (List (Instance × CacheKey))) :=
  w.jobs.mapM fun j => do return (j.name, ← j.cacheKeys scope)

end JobMatrix
