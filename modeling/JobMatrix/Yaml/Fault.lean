import JobMatrix.Calendar
import JobMatrix.Yaml.Mark

set_option autoImplicit false

/-!
What can be wrong with a YAML text: a report with the places concerned, or a scalar whose text
does not have the form that its tag asks for.
-/

namespace JobMatrix.Yaml

/-- A problem with its place, and the context in which it was met. -/
structure Report where
  context : Option String
  contextMark : Option Mark
  problem : String
  problemMark : Mark
  deriving DecidableEq, Repr

/-- The report as text. The place of the context is left out when it is on the line and column of
the problem. -/
def Report.text (source : List Char) (r : Report) : String :=
  let place := match r.contextMark with
    | some m => if m.line = r.problemMark.line && m.column = r.problemMark.column then []
        else [m.describe source]
    | none => []
  "\n".intercalate (r.context.toList ++ place ++ [r.problem, r.problemMark.describe source])

/-- A scalar that its tag cannot read. -/
inductive ScalarFault where
  /-- A number without digits. -/
  | emptyNumber
  | integer (base : Nat) (text : Text)
  | longInteger (digits : Nat)
  | decimal (text : Text)
  /-- A number of base sixty with more places than a double has range. -/
  | placesOverflow
  | truth (text : Text)
  | timestamp
  /-- A collection where the text of a timestamp should be. -/
  | timestampCollection
  | calendar (fault : CalendarFault)
  deriving DecidableEq, Repr

/-- Everything that stops the reading of a text. -/
inductive Fault where
  | report (r : Report)
  /-- A character that no YAML text may hold. -/
  | character (c : Char) (index : Nat)
  | scalar (fault : ScalarFault)
  /-- A text that was tagged as a mapping: its characters are no pairs. -/
  | charactersAsPairs
  /-- A sequence that was tagged as a mapping: its first item is no pair. -/
  | itemAsPair (shape : String)
  /-- A repeated key that is an integer too long to print. -/
  | longKey
  /-- An escape that is beyond the last code point. -/
  | codePoint (code : Nat)
  /-- Collections that lie within one another too deep. -/
  | tooDeep
  /-- A value that is defined by itself. -/
  | endless
  deriving DecidableEq, Repr

end JobMatrix.Yaml
