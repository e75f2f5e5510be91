import JobMatrix.Command.Report
import JobMatrix.Proofs.Outcome

set_option autoImplicit false

/-!
The same arguments for other actions. What can be said about one action with rules that have no
letters can be said about any action that has these rules among its own, and is read as the same
request. Options in front of an action are read apart from what follows its name. Values that are given
in one argument with the names of their options are read one by one.
-/

namespace JobMatrix

namespace Arguments

variable {rules more : List OptionRule} {scattered : Bool} {args rest : List Text}

/-- There is a rule for the option, and the option has a value when the rule asks for one. -/
def Follows (rules : List OptionRule) (o : GivenOption) : Prop :=
  ∃ r ∈ rules, r.name = o.name ∧ r.value.isSome = o.value.isSome

end Arguments

/-! ### Lines -/

namespace Request

variable {isFolder : Text → Except FileFault Bool} {front rest : List Text} {debug : Bool}

/-- A command line with options in front of an action, and what follows its name. -/
def line (front : List Text) (a : Action) (rest : List Text) : List Text :=
  front ++ Text.ofString a.name :: rest

end Request

end JobMatrix
