import JobMatrix.Entries
import JobMatrix.Text.Quoted

set_option autoImplicit false

/-!
Calls of operations. A call gives arguments by place and by name; an operation says which
parameters they fill, which of these have to be filled, and whether it takes more than that.
-/

namespace JobMatrix

structure Signature where
  operation : String
  /-- The parameters that have to be given, by place or by name. -/
  required : List Text := []
  /-- The parameters after these that may be given. -/
  optional : List Text := []
  /-- Whether more arguments may be given by place. -/
  takesMore : Bool := false
  /-- The parameters that have to be given, by name. -/
  requiredNamed : List Text := []
  optionalNamed : List Text := []
  /-- Whether other arguments may be given by name. -/
  takesOthers : Bool := false
  deriving DecidableEq, Repr

inductive CallFault where
  /-- An argument whose name is no text. -/
  | nameless
  /-- A parameter that is given twice. -/
  | repeated (operation : String) (parameter : Text)
  | unexpected (operation : String) (name : Text)
  | tooMany (operation : String) (least most given : Nat)
  | missing (operation : String) (names : List Text)
  | missingNamed (operation : String) (names : List Text)
  deriving DecidableEq, Repr

namespace CallFault

/-- The ending of a noun that is counted. -/
def plural (count : Nat) : String := if count = 1 then "" else "s"

/-- Names in quotes, with commas and a final "and". -/
def listing (names : List Text) : String :=
  match names.map Text.quoted with
  | [] => ""
  | [a] => a
  | [a, b] => a ++ " and " ++ b
  | quoted => ", ".intercalate quoted.dropLast ++ ", and " ++ quoted.getLastD ""

def missingText (operation kind : String) (names : List Text) : String :=
  operation ++ "() missing " ++ toString names.length ++ " required " ++ kind ++ " argument"
    ++ plural names.length ++ ": " ++ listing names

/-- A name that was given stands between quotes as it is; names that are missing are quoted. -/
def message : CallFault → Text
  | .nameless => "keywords must be strings"
  | .repeated operation parameter =>
    operation ++ "() got multiple values for argument '" ++ parameter ++ "'"
  | .unexpected operation name =>
    operation ++ "() got an unexpected keyword argument '" ++ name ++ "'"
  | .tooMany operation least most given =>
    operation ++ "() takes " ++ (if least = most then
        toString most ++ " positional argument" ++ plural most
      else "from " ++ toString least ++ " to " ++ toString most ++ " positional arguments")
      ++ " but " ++ toString given ++ (if given = 1 then " was given" else " were given")
  | .missing operation names => missingText operation "positional" names
  | .missingNamed operation names => missingText operation "keyword-only" names

end CallFault

/-- The arguments of a call that fits, by their parameters. -/
structure Binding (α : Type) where
  given : Entries α := []
  /-- The further arguments by place. -/
  more : List α := []
  /-- The other arguments by name. -/
  others : Entries α := []

namespace Signature

variable {α : Type}

/-- The parameters that can be given by place. -/
def placed (s : Signature) : List Text := s.required ++ s.optional

def parameters (s : Signature) : List Text := s.placed ++ s.requiredNamed ++ s.optionalNamed

/-- Adds an argument by name. -/
def addNamed (s : Signature) (b : Binding α) (argument : Text × α) :
    Except CallFault (Binding α) :=
  if s.parameters.contains argument.1 then
    if (b.given.get? argument.1).isSome then .error (.repeated s.operation argument.1)
    else .ok { b with given := b.given ++ [argument] }
  else if s.takesOthers then .ok { b with others := b.others ++ [argument] }
  else .error (.unexpected s.operation argument.1)

/-- Fits a call to a signature: by place first, then by name in the order of the call; after that
it is seen whether there are too many arguments or too few. -/
def bind (s : Signature) (arguments : List α) (named : Entries α) :
    Except CallFault (Binding α) := do
  let count := s.placed.length
  let start : Binding α := { given := s.placed.zip arguments, more := arguments.drop count }
  let b ← named.foldlM s.addNamed start
  if !s.takesMore && count < arguments.length then
    throw (.tooMany s.operation s.required.length count arguments.length)
  let absent (names : List Text) : List Text := names.filter fun n => (b.given.get? n).isNone
  if !(absent s.required).isEmpty then throw (.missing s.operation (absent s.required))
  if !(absent s.requiredNamed).isEmpty then
    throw (.missingNamed s.operation (absent s.requiredNamed))
  return b

end Signature

end JobMatrix
