import Mathlib.Data.List.TakeWhile
import JobMatrix.Text.Blank

set_option autoImplicit false

/-!
Texts of blanks, and texts with a blank at neither end. Trimming takes away exactly the blanks that
were put around a text of the second kind.
-/

namespace JobMatrix.Text

def Blanks (t : Text) : Prop := ∀ c ∈ t, isBlank c = true

instance (t : Text) : Decidable (Blanks t) := inferInstanceAs (Decidable (∀ c ∈ t, isBlank c = true))

/-- A text with a blank at neither end. -/
structure Trimmed (t : Text) : Prop where
  first : ∀ c ∈ t.head?, isBlank c = false
  last : ∀ c ∈ t.getLast?, isBlank c = false

theorem Blanks.dropWhile_append {b : Text} (blanks : Blanks b) (t : Text) :
    (b ++ t).dropWhile isBlank = t.dropWhile isBlank :=
  List.dropWhile_append_of_pos blanks

theorem Blanks.append {a b : Text} (ha : Blanks a) (hb : Blanks b) : Blanks (a ++ b) :=
  fun c member => (List.mem_append.mp member).elim (ha c) (hb c)

theorem Blanks.reverse {b : Text} (blanks : Blanks b) : Blanks b.reverse :=
  fun c member => blanks c (List.mem_reverse.mp member)

theorem blanks_takeWhile (t : Text) : Blanks (t.takeWhile isBlank) :=
  fun _ member => List.mem_takeWhile_imp member

theorem dropWhile_blank_eq_self {t : Text} (first : ∀ c ∈ t.head?, isBlank c = false) :
    t.dropWhile isBlank = t := by
  cases t with
  | nil => rfl
  | cons c cs => simp [first c (by simp)]

theorem first_dropWhile_blank (t : Text) :
    ∀ c ∈ (t.dropWhile isBlank).head?, isBlank c = false := by
  intro c member
  have := List.head?_dropWhile_not isBlank t
  simpa [Option.mem_def.mp member] using this

theorem Blanks.dropWhile {b : Text} (blanks : Blanks b) : b.dropWhile isBlank = [] :=
  List.dropWhile_eq_nil_iff.mpr blanks

theorem trim_padded {before t after : Text} (hb : Blanks before) (ha : Blanks after)
    (ht : Trimmed t) : trim (before ++ t ++ after) = t := by
  rcases List.eq_nil_or_concat t with rfl | ⟨start, c, rfl⟩
  · simp [trim, (hb.append ha).dropWhile]
  · have start_dropped : (start.concat c ++ after).dropWhile isBlank = start.concat c ++ after := by
      refine dropWhile_blank_eq_self fun d member => ht.first d ?_
      cases start <;> simpa using member
    have end_dropped : (start.concat c ++ after).reverse.dropWhile isBlank =
        (start.concat c).reverse := by
      rw [List.reverse_append, ha.reverse.dropWhile_append]
      exact dropWhile_blank_eq_self fun d member => ht.last d (by simpa using member)
    rw [trim, List.append_assoc, hb.dropWhile_append, start_dropped, end_dropped,
      List.reverse_reverse]

theorem trim_eq_nil_iff {t : Text} : trim t = [] ↔ isBlankText t = true := by
  rw [trim, List.reverse_eq_nil_iff, List.dropWhile_eq_nil_iff, isBlankText, List.all_eq_true]
  constructor
  · intro blank c member
    rw [← List.takeWhile_append_dropWhile (p := isBlank) (l := t)] at member
    rcases List.mem_append.mp member with front | rest
    · exact blanks_takeWhile t c front
    · exact blank c (List.mem_reverse.mpr rest)
  · intro blank c member
    exact blank c ((List.dropWhile_sublist isBlank).subset (List.mem_reverse.mp member))

/-! ### Lines -/

theorem linesFrom_eq_nil_iff {line t : Text} : linesFrom line t = [] ↔ line = [] ∧ t = [] := by
  fun_induction linesFrom line t <;> simp_all

/-- Only the empty text has no lines. -/
theorem lines_eq_nil_iff {t : Text} : lines t = [] ↔ t = [] := by
  simp [lines, linesFrom_eq_nil_iff]

end JobMatrix.Text
