import JobMatrix.Placeholder
import JobMatrix.Proofs.Text.Blank

set_option autoImplicit false

/-!
The shape of placeholders, stated apart from the reader that looks for them: the opening braces,
blanks, an expression on one line with a blank at neither end, blanks, and the closing braces. The
reader finds a placeholder at the start of a text exactly when one stands there, and then the
shortest one.
-/

namespace JobMatrix.Placeholder

open Text

def opening : Text := [.char '$', .char '\x7b', .char '\x7b']

def closing : Text := [.char '\x7d', .char '\x7d']

/-- The shape of a placeholder. The blanks around the expression may hold line breaks. -/
structure WellFormed (p : Placeholder) : Prop where
  spelled : ∃ before after, Blanks before ∧ Blanks after ∧
    p.source = opening ++ before ++ p.expression ++ after ++ closing
  oneLine : .char '\n' ∉ p.expression
  trimmed : Trimmed p.expression

/-- The text starts with the placeholder, and with no shorter one. -/
structure Begins (t : Text) (p : Placeholder) : Prop where
  wellFormed : p.WellFormed
  starts : p.source <+: t
  shortest : ∀ q : Placeholder, q.WellFormed → q.source <+: t → p.source.length ≤ q.source.length

/-- The characters of a placeholder determine its expression. -/
theorem WellFormed.eq_of_source {p q : Placeholder} (hp : p.WellFormed) (hq : q.WellFormed)
    (same : p.source = q.source) : p = q := by
  obtain ⟨b, a, hb, ha, spelled⟩ := hp.spelled
  obtain ⟨b', a', hb', ha', spelled'⟩ := hq.spelled
  have inner : b ++ p.expression ++ a = b' ++ q.expression ++ a' := by
    rw [spelled, spelled'] at same
    have framed : opening ++ (b ++ p.expression ++ a) ++ closing =
        opening ++ (b' ++ q.expression ++ a') ++ closing := by
      simpa only [List.append_assoc] using same
    exact List.append_cancel_left (List.append_cancel_right framed)
  have expressions : p.expression = q.expression := by
    rw [← trim_padded hb ha hp.trimmed, inner, trim_padded hb' ha' hq.trimmed]
  cases p
  cases q
  simp_all

theorem WellFormed.source_ne_nil {p : Placeholder} (hp : p.WellFormed) : p.source ≠ [] := by
  obtain ⟨before, after, -, -, spelled⟩ := hp.spelled
  simp [spelled, opening]

/-! ### Closing braces -/

theorem isBlank_brace : isBlank (.char '\x7d') = false := by decide

theorem afterClosing?_eq_some {t rest : Text} :
    afterClosing? t = some rest ↔ ∃ blanks, Blanks blanks ∧ t = blanks ++ closing ++ rest := by
  constructor
  · intro found
    refine ⟨t.takeWhile isBlank, blanks_takeWhile t, ?_⟩
    unfold afterClosing? at found
    split at found
    next braces =>
      obtain rfl := Option.some.inj found
      rw [List.append_assoc, closing, List.cons_append, List.cons_append, List.nil_append,
        ← braces, List.takeWhile_append_dropWhile]
    next => simp at found
  · rintro ⟨blanks, hb, rfl⟩
    have dropped : (blanks ++ closing ++ rest).dropWhile isBlank = closing ++ rest := by
      rw [List.append_assoc, hb.dropWhile_append]
      exact dropWhile_blank_eq_self (by simp [closing, isBlank_brace])
    rw [afterClosing?, dropped]
    rfl

/-- Closing braces after blanks alone come before all others. -/
theorem closing_first {blanks other rest rest' : Text} (hb : Blanks blanks)
    (same : blanks ++ closing ++ rest = other ++ closing ++ rest') :
    rest'.length ≤ rest.length := by
  rw [List.append_assoc, List.append_assoc] at same
  have lengths := congrArg List.length same
  rcases List.append_eq_append_iff.mp same with ⟨more, rfl, -⟩ | ⟨more, rfl, tail⟩
  · simp only [List.length_append] at lengths
    omega
  · cases more with
    | nil =>
      simp only [List.length_append, List.length_nil] at lengths
      omega
    | cons c more =>
      -- The first brace of the other text would stand among the blanks.
      have brace : c = .char '\x7d' := by
        simp only [closing, List.cons_append, List.cons.injEq] at tail
        exact tail.1.symm
      have blank := hb c (by simp)
      rw [brace, isBlank_brace] at blank
      contradiction

/-! ### Expressions -/

theorem expression?_sound {t e rest : Text} (found : expression? t = some (e, rest)) :
    (∃ after, Blanks after ∧ t = e ++ after ++ closing ++ rest) ∧
      .char '\n' ∉ e ∧ ∀ c ∈ e.getLast?, isBlank c = false := by
  induction t generalizing e with
  | nil => simp [expression?] at found
  | cons c cs ih =>
    rw [expression?] at found
    split at found
    next closes =>
      obtain ⟨rfl, rfl⟩ := Prod.mk.inj (Option.some.inj found)
      obtain ⟨blanks, hb, whole⟩ := afterClosing?_eq_some.mp closes
      exact ⟨⟨blanks, hb, by simpa using whole⟩, by simp, by simp⟩
    next goesOn =>
      split at found
      next => simp at found
      next inLine =>
        obtain ⟨⟨e', rest'⟩, later, same⟩ := Option.map_eq_some_iff.mp found
        obtain ⟨rfl, rfl⟩ := Prod.mk.inj same
        obtain ⟨⟨after, ha, rfl⟩, oneLine, last⟩ := ih later
        refine ⟨⟨after, ha, by simp⟩, ?_, ?_⟩
        · intro member
          rcases List.mem_cons.mp member with rfl | member
          · simp at inLine
          · exact oneLine member
        cases e' with
        | cons d ds => simpa using last
        | nil =>
          -- A blank right before the closing braces is not read as an expression.
          intro d member
          obtain rfl : c = d := by simpa using member
          by_contra blank
          have closes : afterClosing? (c :: ([] ++ after ++ closing ++ rest')) = some rest' := by
            refine afterClosing?_eq_some.mpr ⟨c :: after, ?_, by simp⟩
            intro x hx
            rcases List.mem_cons.mp hx with rfl | hx
            · simpa using blank
            · exact ha x hx
          rw [closes] at goesOn
          contradiction

theorem expression?_of_closing {t rest : Text} (closes : afterClosing? t = some rest) :
    expression? t = some ([], rest) := by
  cases t with
  | nil => simp [afterClosing?] at closes
  | cons c cs => rw [expression?, closes]

theorem expression?_cons {c : CodePoint} {cs : Text} (goesOn : afterClosing? (c :: cs) = none)
    (inLine : c ≠ .char '\n') :
    expression? (c :: cs) = (expression? cs).map fun found => (c :: found.1, found.2) := by
  rw [expression?, goesOn]
  simp [inLine]

/-- Where an expression and its end stand, an expression is found whose end comes no later. -/
theorem expression?_complete {e after : Text} (rest : Text) (ha : Blanks after)
    (line : .char '\n' ∉ e) :
    ∃ e' rest', expression? (e ++ after ++ closing ++ rest) = some (e', rest') ∧
      rest.length ≤ rest'.length := by
  induction e with
  | nil =>
    have closes : afterClosing? (after ++ closing ++ rest) = some rest :=
      afterClosing?_eq_some.mpr ⟨after, ha, rfl⟩
    exact ⟨[], rest, expression?_of_closing closes, le_refl _⟩
  | cons c e ih =>
    obtain ⟨e', rest', found, bound⟩ := ih fun member => line (List.mem_cons_of_mem c member)
    cases closes : afterClosing? (c :: (e ++ after ++ closing ++ rest)) with
    | some earlier =>
      obtain ⟨blanks, hb, whole⟩ := afterClosing?_eq_some.mp closes
      have same : blanks ++ closing ++ earlier = (c :: e ++ after) ++ closing ++ rest := by
        rw [← whole]
        simp only [List.cons_append]
      exact ⟨[], earlier, expression?_of_closing closes, closing_first hb same⟩
    | none =>
      have inLine : c ≠ .char '\n' := fun same => line (by simp [same])
      refine ⟨c :: e', rest', ?_, bound⟩
      simp only [List.cons_append]
      rw [expression?_cons closes inLine, found]
      rfl

/-! ### Placeholders at the start of a text -/

theorem atStart?_eq_some {t : Text} {p : Placeholder} :
    atStart? t = some p ↔ ∃ inner rest, t = opening ++ inner ∧
      expression? (inner.dropWhile isBlank) = some (p.expression, rest) ∧
      p.source = t.take (t.length - rest.length) := by
  constructor
  · intro found
    unfold atStart? at found
    split at found
    next inner =>
      obtain ⟨⟨e, rest⟩, read, rfl⟩ := Option.map_eq_some_iff.mp found
      exact ⟨inner, rest, rfl, read, rfl⟩
    next => simp at found
  · rintro ⟨inner, rest, rfl, read, source⟩
    obtain ⟨characters, expression⟩ := p
    obtain rfl : characters = _ := source
    exact Option.map_eq_some_iff.mpr ⟨_, read, rfl⟩

theorem atStart?_sound {t : Text} {p : Placeholder} (found : atStart? t = some p) :
    p.WellFormed ∧ p.source <+: t := by
  obtain ⟨inner, rest, rfl, read, source⟩ := atStart?_eq_some.mp found
  obtain ⟨⟨after, ha, whole⟩, oneLine, last⟩ := expression?_sound read
  have first : ∀ c ∈ p.expression.head?, isBlank c = false := by
    intro c member
    refine first_dropWhile_blank inner c ?_
    rw [whole]
    cases e : p.expression <;> simp_all
  obtain ⟨before, hb, split⟩ : ∃ before, Blanks before ∧
      inner = before ++ (p.expression ++ after ++ closing ++ rest) :=
    ⟨inner.takeWhile isBlank, blanks_takeWhile inner, by
      rw [← whole, List.takeWhile_append_dropWhile]⟩
  have cut : opening ++ inner =
      (opening ++ before ++ p.expression ++ after ++ closing) ++ rest := by
    rw [split]
    simp only [List.append_assoc]
  rw [cut, List.length_append, Nat.add_sub_cancel, List.take_left] at source
  exact ⟨⟨⟨before, after, hb, ha, source⟩, oneLine, first, last⟩, rest, by rw [source, cut]⟩

/-- After the opening braces and blanks, an expression and its end are still there. -/
theorem dropWhile_inner {before e after : Text} (rest : Text) (hb : Blanks before)
    (ha : Blanks after) (he : Trimmed e) :
    ∃ after', Blanks after' ∧ (before ++ e ++ after ++ closing ++ rest).dropWhile isBlank =
      e ++ after' ++ closing ++ rest := by
  simp only [List.append_assoc, hb.dropWhile_append]
  cases e with
  | nil =>
    refine ⟨[], by simp [Blanks], ?_⟩
    rw [List.nil_append, ha.dropWhile_append]
    exact dropWhile_blank_eq_self (by simp [closing, isBlank_brace])
  | cons c cs =>
    refine ⟨after, ha, dropWhile_blank_eq_self fun d member => he.first d ?_⟩
    simpa using member

/-- Where a placeholder stands, one is found that is no longer. -/
theorem atStart?_complete {t : Text} {q : Placeholder} (hq : q.WellFormed) (starts : q.source <+: t) :
    ∃ p, atStart? t = some p ∧ p.source.length ≤ q.source.length := by
  obtain ⟨before, after, hb, ha, spelled⟩ := hq.spelled
  obtain ⟨rest, rfl⟩ := starts
  obtain ⟨after', ha', dropped⟩ := dropWhile_inner rest hb ha hq.trimmed
  obtain ⟨e', rest', read, bound⟩ := expression?_complete rest ha' hq.oneLine
  rw [← dropped] at read
  have whole : q.source ++ rest =
      opening ++ (before ++ q.expression ++ after ++ closing ++ rest) := by
    rw [spelled]
    simp only [List.append_assoc]
  refine ⟨⟨_, e'⟩, atStart?_eq_some.mpr ⟨_, rest', whole, read, rfl⟩, ?_⟩
  simp only [List.length_take, List.length_append]
  omega

/-- The reader finds the shortest placeholder that a text starts with. -/
theorem atStart?_iff_begins {t : Text} {p : Placeholder} : atStart? t = some p ↔ Begins t p := by
  constructor
  · intro found
    obtain ⟨wellFormed, starts⟩ := atStart?_sound found
    refine ⟨wellFormed, starts, fun q hq hs => ?_⟩
    obtain ⟨p', found', bound⟩ := atStart?_complete hq hs
    obtain rfl : p = p' := Option.some.inj (found.symm.trans found')
    exact bound
  · intro begins
    obtain ⟨p', found, bound⟩ := atStart?_complete begins.wellFormed begins.starts
    obtain ⟨wellFormed, starts⟩ := atStart?_sound found
    have lengths := le_antisymm (begins.shortest p' wellFormed starts) bound
    have same : p.source = p'.source :=
      (List.prefix_of_prefix_length_le begins.starts starts lengths.le).eq_of_length lengths
    rw [found, begins.wellFormed.eq_of_source wellFormed same]

theorem Begins.unique {t : Text} {p q : Placeholder} (hp : Begins t p) (hq : Begins t q) : p = q :=
  Option.some.inj ((atStart?_iff_begins.mpr hp).symm.trans (atStart?_iff_begins.mpr hq))

theorem atStart?_eq_none {t : Text} :
    atStart? t = none ↔ ∀ q : Placeholder, q.WellFormed → ¬ q.source <+: t := by
  constructor
  · intro nothing q hq starts
    obtain ⟨p, found, -⟩ := atStart?_complete hq starts
    rw [nothing] at found
    contradiction
  · intro nothing
    cases found : atStart? t with
    | none => rfl
    | some p => exact absurd (atStart?_sound found).2 (nothing p (atStart?_sound found).1)

end JobMatrix.Placeholder
