import JobMatrix.CacheKey
import JobMatrix.Proofs.Json.Separable

set_option autoImplicit false

/-!
What the digest is taken of says all that it was made of: the text of a payload determines the
platform, the assignment and the scope, where no scope is not the empty one.
-/

namespace JobMatrix.CacheKey

open Json

def cellText (cell : Text × Text) : Text :=
  line .tight (.array [.string cell.1, .string cell.2])

def scopeText : Option Text → Text
  | some s => stringText s
  | none => "null"

/-- The cells of an assignment in the text of a payload. -/
def cellsText (assignment : List (Text × Text)) : Text :=
  Text.joined Separators.tight.item (assignment.map cellText) ++ Text.ofString "]"

theorem itemLines_cells (assignment : List (Text × Text)) :
    itemLines .tight (assignment.map fun cell => .array [.string cell.1, .string cell.2]) =
      assignment.map cellText := by
  induction assignment with
  | nil => rfl
  | cons cell assignment ih => rw [List.map_cons, itemLines, ih, List.map_cons, cellText]

theorem cellText_eq (cell : Text × Text) :
    cellText cell = Text.ofString "[" ++ stringText cell.1 ++ Separators.tight.item ++
      ([] ++ stringText cell.2 ++ Text.ofString "]") := by
  simp [cellText, line, itemLines, Text.joined_cons]

theorem separable_cellText : Separable cellText := by
  have both := (separable_stringText.framed (Text.ofString "[") Separators.tight.item).pair
    (separable_stringText.framed [] (Text.ofString "]"))
  intro c d r r' same
  rw [cellText_eq, cellText_eq] at same
  exact both same

theorem cellText_avoids_bracket : Avoids cellText (.char ']') := by
  intro cell
  rw [cellText_eq]
  exact ⟨.char '[', _, rfl, by decide⟩

theorem separable_cellsText : Separable cellsText := by
  have comma : CodePoint.char ',' ≠ .char ']' := by decide
  exact separable_cellText.joined comma cellText_avoids_bracket

theorem separable_scopeText : Separable scopeText := by
  intro s s' r r' same
  cases s <;> cases s'
  · exact ⟨rfl, List.append_cancel_left same⟩
  · exact absurd (List.cons.inj same).1 (by decide)
  · exact absurd (List.cons.inj same).1 (by decide)
  · obtain ⟨rfl, rests⟩ := separable_stringText same
    exact ⟨rfl, rests⟩

/-- The text of a payload has its three parts in fixed surroundings. -/
theorem stableText_payloadOf : ∃ front₁ front₂ front₃ last : Text, ∀ platform assignment scope,
    stableText (payloadOf platform assignment scope) =
      (front₁ ++ cellsText assignment ++ front₂) ++ ([] ++ stringText platform ++ front₃) ++
        ([] ++ scopeText scope ++ last) := by
  let name (s : String) : Text := stringText s ++ Separators.tight.name
  refine ⟨Text.ofString "\x7b" ++ name "assignment" ++ Text.ofString "[",
    Separators.tight.item ++ name "platform", Separators.tight.item ++ name "prefix",
    Separators.tight.item ++ name "v" ++ Text.ofString (toString version) ++ Text.ofString "\x7d",
    fun platform assignment scope => ?_⟩
  cases scope <;>
    simp [stableText, payloadOf, line, memberLines, itemLines_cells, Text.joined_cons, cellsText,
      scopeText, name]

/-- The text that the digest is taken of determines what it was made of. -/
theorem stableText_payloadOf_inj {platform platform' : Text}
    {assignment assignment' : List (Text × Text)} {scope scope' : Option Text} :
    stableText (payloadOf platform assignment scope) =
        stableText (payloadOf platform' assignment' scope') ↔
      platform = platform' ∧ assignment = assignment' ∧ scope = scope' := by
  constructor
  · intro same
    obtain ⟨front₁, front₂, front₃, last, spelled⟩ := stableText_payloadOf
    have parts := ((separable_cellsText.framed front₁ front₂).pair
      (separable_stringText.framed [] front₃)).pair (separable_scopeText.framed [] last)
    rw [spelled, spelled] at same
    have equal : ((assignment, platform), scope) = ((assignment', platform'), scope') :=
      parts.injective same
    simp only [Prod.mk.injEq] at equal
    exact ⟨equal.1.2, equal.1.1, equal.2⟩
  · rintro ⟨rfl, rfl, rfl⟩
    rfl

end JobMatrix.CacheKey
