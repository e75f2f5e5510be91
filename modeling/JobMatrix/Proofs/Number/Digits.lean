import JobMatrix.Number.Decimal
import Mathlib.Data.List.TakeWhile

set_option autoImplicit false

/-!
Decimal digits read back. The digits of a number are read as that number wherever they stand, up to
what is no digit; and the text of an integer that can be printed is read as that integer.
-/

namespace JobMatrix

/-- A text of digits alone. -/
def AllDigits (cs : List Char) : Prop := ∀ c ∈ cs, c.isDigit = true

theorem allDigits_toDigits (n : Nat) : AllDigits (Nat.toDigits 10 n) :=
  fun _ member => Nat.isDigit_of_mem_toDigits (by decide) (by decide) member

theorem length_toDigits_le {n k : Nat} (positive : 0 < k) (small : n < Nat.pow 10 k) :
    (Nat.toDigits 10 n).length ≤ k :=
  (Nat.length_toDigits_le_iff (by decide) positive).mpr small

theorem allDigits_append {ds es : List Char} : AllDigits (ds ++ es) ↔ AllDigits ds ∧ AllDigits es :=
  List.forall_mem_append

theorem allDigits_zeros (n : Nat) : AllDigits (List.replicate n '0') := by
  intro c member
  obtain rfl := List.eq_of_mem_replicate member
  rfl

theorem Text.digitValue?_of_isDigit {c : Char} (digit : c.isDigit = true) :
    digitValue? c = some (c.toNat - 48) := if_pos digit

theorem toNat_of_isDigit {c : Char} (digit : c.isDigit = true) :
    48 ≤ c.toNat ∧ c.toNat ≤ 57 := by
  simpa [Char.isDigit, UInt32.le_iff_toNat_le, ← Char.toNat_val] using digit

namespace Binary64

theorem readDigits_digit {c : Char} (digit : c.isDigit = true) (rest : List Char)
    (value count : Nat) :
    readDigits (c :: rest) value count = readDigits rest (value * 10 + (c.toNat - 48)) (count + 1) := by
  have plain : c ≠ '_' := by
    rintro rfl
    contradiction
  rw [readDigits]
  · simp only [Text.digitValue?_of_isDigit digit]
  · intro _ _ same
    exact absurd same plain

/-- What no digit can follow: the end, or a character that stands between no two digits. -/
def Stops (rest : List Char) : Prop :=
  ∀ c ∈ rest.head?, c ≠ '_' ∧ Text.digitValue? c = none

theorem readDigits_stop {rest : List Char} (stops : Stops rest) (value count : Nat) :
    readDigits rest value count = (value, count, rest) := by
  unfold readDigits
  split
  next => rfl
  next => exact absurd rfl (stops _ rfl).1
  next => simp [(stops _ rfl).2]

/-- Digits are read as the number that they stand for. -/
theorem readDigits_append {ds rest : List Char} (digits : AllDigits ds) (stops : Stops rest)
    (value count : Nat) : readDigits (ds ++ rest) value count =
      (Nat.ofDigitChars 10 ds value, count + ds.length, rest) := by
  induction ds generalizing value count with
  | nil => simpa using readDigits_stop stops value count
  | cons d ds ih =>
    obtain ⟨digit, digits⟩ := List.forall_mem_cons.mp digits
    rw [List.cons_append, readDigits_digit digit, ih digits, Nat.ofDigitChars_cons, Nat.mul_comm]
    simp [Nat.add_comm, Nat.add_left_comm]

theorem readDigits_all {ds : List Char} (digits : AllDigits ds) (value count : Nat) :
    readDigits ds value count = (Nat.ofDigitChars 10 ds value, count + ds.length, []) := by
  have stops : Stops [] := by simp [Stops]
  have read := readDigits_append digits stops value count
  rwa [List.append_nil] at read

/-! ### Blanks around a number -/

theorem isNumberBlank_of_isDigit {c : Char} (digit : c.isDigit = true) : isNumberBlank c = false := by
  obtain ⟨low, high⟩ := toNat_of_isDigit digit
  have apart : ∀ r ∈ Text.blankRanges, ¬(r.1 ≤ c.toNat ∧ c.toNat ≤ r.2) := by
    simp [Text.blankRanges]
    omega
  have blank : Text.isBlank (.char c) = false := by
    rw [Text.isBlank, Text.CodeRanges.has, List.any_eq_false]
    intro r member
    rw [show (CodePoint.char c).code = c.toNat from rfl]
    simpa using apart r member
  rw [isNumberBlank, blank, Bool.false_and]

theorem trimNumber_eq_self {cs : List Char} (first : ∀ c ∈ cs.head?, isNumberBlank c = false)
    (last : ∀ c ∈ cs.getLast?, isNumberBlank c = false) : trimNumber cs = cs := by
  have front : cs.dropWhile isNumberBlank = cs := by
    cases cs with
    | nil => rfl
    | cons c cs => simp [first c rfl]
  have back : cs.reverse.dropWhile isNumberBlank = cs.reverse := by
    rw [← List.head?_reverse] at last
    cases same : cs.reverse with
    | nil => rfl
    | cons c rest =>
      rw [same] at last
      simp [last c rfl]
  rw [trimNumber, front, back, List.reverse_reverse]

/-- The sign of a number, as it stands in front of its digits. -/
def signed (negative : Bool) (cs : List Char) : List Char := if negative then '-' :: cs else cs

theorem readSign_signed {negative : Bool} {cs : List Char} (digit : ∀ c ∈ cs.head?, c.isDigit = true) :
    readSign (signed negative cs) = (negative, cs) := by
  cases negative with
  | true => rfl
  | false =>
    unfold signed readSign
    split
    next same =>
      simp only [Bool.false_eq_true, if_false] at same
      rw [same] at digit
      exact absurd (digit '-' rfl) (by decide)
    next same =>
      simp only [Bool.false_eq_true, if_false] at same
      rw [same] at digit
      exact absurd (digit '+' rfl) (by decide)
    next => rfl

theorem trimNumber_signed {negative : Bool} {cs : List Char} (nonempty : cs ≠ [])
    (first : ∀ c ∈ cs.head?, c.isDigit = true) (last : ∀ c ∈ cs.getLast?, c.isDigit = true) :
    trimNumber (signed negative cs) = signed negative cs := by
  apply trimNumber_eq_self
  · intro c member
    cases negative with
    | true =>
      obtain rfl := Option.some.inj member
      decide
    | false => exact isNumberBlank_of_isDigit (first c member)
  · intro c member
    apply isNumberBlank_of_isDigit
    apply last
    cases negative with
    | true =>
      obtain ⟨d, ds, rfl⟩ := List.exists_cons_of_ne_nil nonempty
      simpa [signed, List.getLast?_cons_cons] using member
    | false => exact member

end Binary64

/-! ### Integers -/

namespace Integer

open Binary64

theorem digitOf?_of_isDigit {c : Char} (digit : c.isDigit = true) :
    digitOf? c = some (c.toNat - 48) := by
  rw [digitOf?, Text.digitValue?_of_isDigit digit]

theorem readAll?_digits {ds : List Char} (digits : AllDigits ds) (value : Nat) :
    readAll? 10 ds value = some (Nat.ofDigitChars 10 ds value) := by
  induction ds generalizing value with
  | nil => rfl
  | cons d ds ih =>
    obtain ⟨digit, digits⟩ := List.forall_mem_cons.mp digits
    have low : d.toNat - 48 < 10 := by
      have := toNat_of_isDigit digit
      omega
    simp only [readAll?, digitOf?_of_isDigit digit, low, if_true, ih digits, Nat.ofDigitChars_cons,
      Nat.mul_comm]
    rfl

theorem dropBaseMark_ten (cs : List Char) : dropBaseMark 10 cs = cs := by
  unfold dropBaseMark
  split <;> simp

/-- The digits of a number with its sign are read as that number. -/
theorem read_signed {n : Nat} (short : n < Nat.pow 10 maxDigits) (negative : Bool) :
    read 10 (signed negative (Nat.toDigits 10 n)) = .ok (if negative then -(n : Int) else n) := by
  have digits := allDigits_toDigits n
  have nonempty : Nat.toDigits 10 n ≠ [] := Nat.toDigits_ne_nil
  have size := length_toDigits_le (by decide) short
  have first : ∀ c ∈ (Nat.toDigits 10 n).head?, c.isDigit = true :=
    fun c member => digits c (List.mem_of_mem_head? member)
  have last : ∀ c ∈ (Nat.toDigits 10 n).getLast?, c.isDigit = true :=
    fun c member => digits c (List.mem_of_mem_getLast? member)
  have run : (Nat.toDigits 10 n).takeWhile (fun c => (digitOf? c).any (· < 10)) =
      Nat.toDigits 10 n := by
    rw [List.takeWhile_eq_self_iff]
    intro c member
    have := toNat_of_isDigit (digits c member)
    simp only [digitOf?_of_isDigit (digits c member), Option.any_some, decide_eq_true_eq]
    omega
  unfold read
  rw [trimNumber_signed nonempty first last, readSign_signed first]
  dsimp only
  rw [dropBaseMark_ten]
  split
  next none => exact absurd none nonempty
  next =>
    rw [run, readAll?_digits digits, Nat.ofDigitChars_ten_toDigits]
    simp [Nat.not_lt.mpr size]

theorem toList_toString (n : Int) :
    (toString n).toList = signed (n < 0) (Nat.toDigits 10 n.natAbs) := by
  cases n with
  | ofNat m => simp [signed, toString, Int.repr, Nat.repr_eq_ofList_toDigits]
  | negSucc m => simp [signed, toString, Int.repr, Nat.repr_eq_ofList_toDigits, Int.negSucc_lt_zero]

/-- An integer that can be printed is read as it was. -/
theorem read_toString {n : Int} (short : n.natAbs < Nat.pow 10 maxDigits) :
    read 10 (toString n).toList = .ok n := by
  rw [toList_toString, read_signed short]
  by_cases negative : n < 0
  · have same : -(n.natAbs : Int) = n := by omega
    simp only [negative, decide_true, if_true, same]
  · have same : (n.natAbs : Int) = n := by omega
    simp only [negative, decide_false, Bool.false_eq_true, if_false, same]

end Integer

end JobMatrix
