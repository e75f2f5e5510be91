import JobMatrix.Proofs.Json.Strings

set_option autoImplicit false

/-!
Documents read back from exchanged text. A document is read up to its end, whatever comes after it
that is no part of a word; the count of steps that a reader is given is bounded by the length of the
text, and is enough.
-/

namespace JobMatrix.Json

/-- A word is read as a number, as it is no other word. -/
structure IsNumber (word : String) : Prop where
  inhabited : word.toList ≠ []
  each : ∀ c ∈ word.toList, isLiteral c = true
  other : word ≠ "null" ∧ word ≠ "true" ∧ word ≠ "false"

/-- Documents whose numbers and texts are read as they are written. -/
inductive Readable : Json → Prop where
  | null : Readable .null
  | bool {b : Bool} : Readable (.bool b)
  | number {word : String} : IsNumber word → Readable (.number word)
  | string {s : Text} : s.Unpaired → Readable (.string s)
  | array {items : List Json} : (∀ j ∈ items, Readable j) → Readable (.array items)
  | object {members : List (Text × Json)} : (∀ m ∈ members, m.1.Unpaired) →
      (∀ m ∈ members, Readable m.2) → Readable (.object members)

/-- The text of a document on one line, in ASCII. -/
abbrev written (j : Json) : List Char := ascii (line .spaced j)

/-- What can come after a word. -/
def Ends (rest : List Char) : Prop := ∀ c ∈ rest.head?, isLiteral c = false

/-! ### Words -/

/-- A document is read up to its end, in steps that its length bounds. -/
def Reads (j : Json) : Prop := ∀ n rest, 3 * (written j).length ≤ n → Ends rest →
  value? n (written j ++ rest) = some (j, rest)

end JobMatrix.Json
