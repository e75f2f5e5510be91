import JobMatrix.Text

set_option autoImplicit false

/-!
Words that resemble a given one. The resemblance of two words is twice the number of characters in
common blocks over the number of all characters, where the longest block that both words share is
taken first, and then the parts before it and the parts after it are compared in the same way.
-/

namespace JobMatrix.Text

/-- A block that two words share: where it starts in each, and its size. -/
structure Block where
  left : Nat := 0
  right : Nat := 0
  size : Nat := 0
  deriving DecidableEq, Repr, Inhabited

/-- How far two words agree from their start. -/
def agreement : Text → Text → Nat
  | a :: as, b :: bs => if a == b then agreement as bs + 1 else 0
  | _, _ => 0

/-- The longest block that two words share; of several the one that starts first in the first word,
and of those the one that starts first in the second. -/
def longestBlock (a b : Text) : Block :=
  let candidates := (List.range a.length).flatMap fun i =>
    (List.range b.length).map fun j => (⟨i, j, agreement (a.drop i) (b.drop j)⟩ : Block)
  candidates.foldl (fun best c => if best.size < c.size then c else best) {}

/-- The number of characters in common blocks. -/
def commonCount (a b : Text) : Nat :=
  match longestBlock a b with
  | ⟨left, right, size⟩ =>
    if _h : 0 < size ∧ left + size ≤ a.length then
      size + commonCount (a.take left) (b.take right)
        + commonCount (a.drop (left + size)) (b.drop (right + size))
    else 0
termination_by a.length
decreasing_by
  all_goals simp only [List.length_take, List.length_drop]; omega

/-- Whether the resemblance of two words is at least three fifths. -/
def resembles (a b : Text) : Bool := 3 * (a.length + b.length) ≤ 5 * (2 * commonCount a b)

/-- Whether the first of two words, given with their counts of common characters, resembles a word
of a given length more than the second; of words alike in that the later one in order counts. -/
def closer (length : Nat) (x y : Text × Nat) : Bool :=
  let left := x.2 * (y.1.length + length)
  let right := y.2 * (x.1.length + length)
  left > right || left == right && Text.before y.1 x.1

/-- The words of a list that resemble a word, at most three of them, in alphabetical order. -/
def similarWords (word : Text) (known : List Text) : List Text :=
  let alike := known.filter fun k => resembles k word
  let best := ((alike.map fun k => (k, commonCount k word)).mergeSort (closer word.length)).take 3
  (best.map Prod.fst).mergeSort before

end JobMatrix.Text
