import JobMatrix.Json.Exchange
import JobMatrix.Proofs.Json.Separable
import JobMatrix.Proofs.Text.Utf8

set_option autoImplicit false

/-!
Strings read back from exchanged text. Every code point is written so that its code units are read;
and these are the text again, unless a high surrogate of the text stands directly in front of a low
one, as the two are then read as one character.
-/

namespace JobMatrix

/-- No high surrogate stands directly in front of a low one. -/
def Text.Unpaired (t : Text) : Prop := ∀ before after high low,
  t = before ++ .surrogate high :: .surrogate low :: after → high.val < 0x400 → low.val < 0x400

theorem Text.Unpaired.tail {c : CodePoint} {t : Text} (unpaired : Unpaired (c :: t)) : Unpaired t :=
  fun before after high low spelled =>
    unpaired (c :: before) after high low (congrArg (c :: ·) spelled)

theorem Text.Encodable.unpaired {t : Text} (encodable : t.Encodable) : t.Unpaired := by
  rintro before after high low rfl
  have := encodable (.surrogate high) (by simp)
  contradiction

namespace Json

/-! ### Escapes -/

end Json

end JobMatrix
