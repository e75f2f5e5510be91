import Mathlib.Logic.Function.Basic
import Mathlib.Data.List.Infix
import JobMatrix.Json

set_option autoImplicit false

/-!
Written forms that end by themselves: two of them differ before either is at its end, whatever comes
after. Strings in JSON are of this kind, and so is what is put together from such forms, between
brackets and with separators.
-/

namespace JobMatrix

/-- Where two forms with something after them are the same, so are what they stand for and what
comes after. -/
def Separable {α : Type} (write : α → Text) : Prop :=
  ∀ ⦃a b : α⦄ ⦃r r' : Text⦄, write a ++ r = write b ++ r' → a = b ∧ r = r'

/-- Every form starts, and not with this code point. -/
def Avoids {α : Type} (write : α → Text) (stop : CodePoint) : Prop :=
  ∀ a, ∃ c t, write a = c :: t ∧ c ≠ stop

theorem Avoids.append_ne {α : Type} {write : α → Text} {stop : CodePoint} (h : Avoids write stop)
    (a : α) (t r : Text) : write a ++ t ≠ stop :: r := by
  obtain ⟨c, s, spelled, other⟩ := h a
  rw [spelled, List.cons_append]
  exact fun same => other (List.cons.inj same).1

@[simp] theorem Text.joined_nil (between : Text) : Text.joined between [] = [] := rfl

theorem Text.joined_cons (between t : Text) (ts : List Text) :
    Text.joined between (t :: ts) = t ++ ts.flatMap (between ++ ·) := by
  induction ts generalizing t with
  | nil => simp [Text.joined]
  | cons s ts ih =>
    rw [Text.joined, List.intercalate_cons_cons, List.flatMap_cons, List.append_assoc,
      List.append_assoc, ← ih]
    rfl

namespace Separable

variable {α β : Type} {write : α → Text} {writeOther : β → Text}

theorem injective (h : Separable write) : Function.Injective write := by
  intro a b same
  exact (h (congrArg (· ++ []) same)).1

theorem framed (h : Separable write) (before after : Text) :
    Separable fun a => before ++ write a ++ after := by
  intro a b r r' same
  simp only [List.append_assoc, List.append_cancel_left_eq] at same
  obtain ⟨rfl, rests⟩ := h same
  exact ⟨rfl, List.append_cancel_left rests⟩

theorem pair (h : Separable write) (h' : Separable writeOther) :
    Separable fun p : α × β => write p.1 ++ writeOther p.2 := by
  rintro ⟨a, b⟩ ⟨a', b'⟩ r r' same
  simp only [List.append_assoc] at same
  obtain ⟨rfl, rests⟩ := h same
  obtain ⟨rfl, rfl⟩ := h' rests
  exact ⟨rfl, rfl⟩

/-- Forms one after the other, up to a code point that starts none of them. -/
theorem closed (h : Separable write) {stop : CodePoint} (first : Avoids write stop) :
    Separable fun as : List α => as.flatMap write ++ [stop] := by
  intro as bs r r' same
  simp only [List.append_assoc, List.singleton_append] at same
  induction as generalizing bs with
  | nil =>
    cases bs with
    | nil => exact ⟨rfl, (List.cons.inj same).2⟩
    | cons b bs =>
      rw [List.flatMap_cons, List.append_assoc] at same
      exact absurd same.symm (first.append_ne b _ r)
  | cons a as ih =>
    rw [List.flatMap_cons, List.append_assoc] at same
    cases bs with
    | nil => exact absurd same (first.append_ne a _ r')
    | cons b bs =>
      rw [List.flatMap_cons, List.append_assoc] at same
      obtain ⟨rfl, rests⟩ := h same
      obtain ⟨rfl, rfl⟩ := ih rests
      exact ⟨rfl, rfl⟩

/-- Forms with a separator between them, up to a code point that starts none of them. -/
theorem joined (h : Separable write) {stop between : CodePoint} (other : between ≠ stop)
    (first : Avoids write stop) :
    Separable fun as : List α => Text.joined [between] (as.map write) ++ [stop] := by
  have later : Separable fun as : List α =>
      as.flatMap (fun a => [between] ++ write a ++ []) ++ [stop] :=
    (h.framed [between] []).closed fun a => ⟨between, write a, by simp, other⟩
  intro as bs r r' same
  cases as with
  | nil =>
    cases bs with
    | nil => exact ⟨rfl, (List.cons.inj same).2⟩
    | cons b bs =>
      simp only [List.map_cons, Text.joined_cons, List.append_assoc] at same
      exact absurd same.symm (first.append_ne b _ r)
  | cons a as =>
    simp only [List.map_cons, Text.joined_cons, List.append_assoc] at same
    cases bs with
    | nil => exact absurd same (first.append_ne a _ r')
    | cons b bs =>
      simp only [List.map_cons, Text.joined_cons, List.append_assoc] at same
      obtain ⟨rfl, rests⟩ := h same
      obtain ⟨rfl, rfl⟩ := later (by simpa [List.flatMap_map] using rests)
      exact ⟨rfl, rfl⟩

end Separable

namespace Json

/-- The characters that do not stand for themselves in a string, and what follows the backslash in
place of each. -/
def escapes : List (Char × Text) :=
  [('\x22', "\x22"), ('\\', "\\"), ('\n', "n"), ('\r', "r"), ('\t', "t"), ('\x08', "b"),
    ('\x0c', "f")].map (Prod.map id Text.ofString) ++
  (List.range 32).map fun n => (Char.ofNat n, .char 'u' :: Text.ofChars (Text.hexDigits 4 n))

theorem escapes_apart : ∀ e ∈ escapes, ∀ e' ∈ escapes, e.2 <+: e'.2 → e = e' := by
  decide +kernel

def Plain (c : Char) : Prop := escapeChar c = [c] ∧ c ≠ '\\' ∧ c ≠ '\x22'

instance (c : Char) : Decidable (Plain c) := inferInstanceAs (Decidable (_ ∧ _))

theorem plain_of_large {c : Char} (large : 128 ≤ c.toNat) : Plain c := by
  have other (d : Char) (small : d.toNat < 128) : c ≠ d := by
    rintro rfl
    omega
  have noControl : ¬ c.toNat < 32 := by omega
  have plain : escapeChar c = [c] := by
    simp only [escapeChar, beq_iff_eq, other '\x22' (by decide), other '\\' (by decide),
      other '\n' (by decide), other '\r' (by decide), other '\t' (by decide),
      other '\x08' (by decide), other '\x0c' (by decide), noControl, if_false]
  exact ⟨plain, other '\\' (by decide), other '\x22' (by decide)⟩

theorem plain_or_escaped (c : Char) :
    Plain c ∨ ∃ e ∈ escapes, e.1 = c ∧ Text.ofChars (escapeChar c) = .char '\\' :: e.2 := by
  -- All characters that have an escape are in ASCII.
  have small : ∀ n < 128, Plain (Char.ofNat n) ∨ ∃ e ∈ escapes, e.1 = Char.ofNat n ∧
      Text.ofChars (escapeChar (Char.ofNat n)) = .char '\\' :: e.2 := by
    decide +kernel
  rcases Nat.lt_or_ge c.toNat 128 with less | large
  · simpa only [Char.ofNat_toNat] using small c.toNat less
  · exact .inl (plain_of_large large)

/-- Two escapes are the same when one of them starts the other. -/
theorem escapes_eq_of_append {e e' : Char × Text} (he : e ∈ escapes) (he' : e' ∈ escapes)
    {r r' : Text} (same : e.2 ++ r = e'.2 ++ r') : e = e' := by
  rcases List.append_eq_append_iff.mp same with ⟨more, spelled, -⟩ | ⟨more, spelled, -⟩
  · exact escapes_apart e he e' he' ⟨more, spelled.symm⟩
  · exact (escapes_apart e' he' e he ⟨more, spelled.symm⟩).symm

theorem escapeCodePoint_cases (c : CodePoint) :
    (escapeCodePoint c = [c] ∧ c ≠ .char '\\' ∧ c ≠ .char '\x22') ∨
      ∃ e ∈ escapes, c = .char e.1 ∧ escapeCodePoint c = .char '\\' :: e.2 := by
  cases c with
  | surrogate n => exact .inl ⟨rfl, by simp, by simp⟩
  | char c =>
    rcases plain_or_escaped c with ⟨plain, noBackslash, noQuote⟩ | ⟨e, he, rfl, spelled⟩
    · exact .inl ⟨congrArg Text.ofChars plain, by simpa using noBackslash, by simpa using noQuote⟩
    · exact .inr ⟨e, he, rfl, spelled⟩

theorem escapeCodePoint_avoids_quote : Avoids escapeCodePoint (.char '\x22') := by
  intro c
  rcases escapeCodePoint_cases c with ⟨plain, -, other⟩ | ⟨e, -, -, spelled⟩
  · exact ⟨c, [], plain, other⟩
  · exact ⟨.char '\\', e.2, spelled, by decide⟩

theorem separable_escapeCodePoint : Separable escapeCodePoint := by
  intro c d r r' same
  rcases escapeCodePoint_cases c with ⟨plain, other, -⟩ | ⟨e, he, rfl, spelled⟩ <;>
    rcases escapeCodePoint_cases d with ⟨plain', other', -⟩ | ⟨e', he', rfl, spelled'⟩
  · rw [plain, plain'] at same
    exact List.cons.inj same
  · rw [plain, spelled'] at same
    exact absurd (List.cons.inj same).1 other
  · rw [spelled, plain'] at same
    exact absurd (List.cons.inj same).1.symm other'
  · rw [spelled, spelled'] at same
    have tails := (List.cons.inj same).2
    obtain rfl := escapes_eq_of_append he he' tails
    exact ⟨rfl, List.append_cancel_left tails⟩

theorem separable_stringText : Separable stringText := by
  have body := separable_escapeCodePoint.closed escapeCodePoint_avoids_quote
  intro s s' r r' same
  exact body (List.cons.inj same).2

end Json

end JobMatrix
