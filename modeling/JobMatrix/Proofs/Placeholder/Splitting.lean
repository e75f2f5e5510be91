import JobMatrix.Proofs.Placeholder.Shape
import JobMatrix.Proofs.Outcome

set_option autoImplicit false

/-!
Rendering as a cut of the text. Every text is cut in exactly one way into texts that hold no
placeholder and the placeholders between them. Rendering leaves the texts as they are and puts
something in the place of each placeholder, which it does not look at again.
-/

namespace JobMatrix.Placeholder

open Text

/-- No placeholder starts at a position of the text, whatever the end of one that started there. -/
def Free (t after : Text) : Prop :=
  ∀ before rest, t = before ++ rest → rest ≠ [] →
    ∀ q : Placeholder, q.WellFormed → ¬ q.source <+: rest ++ after

/-- `Splits t pieces last`: the text is the pieces, each a text and the placeholder after it, and the
last text. Each placeholder is the shortest one at its position, and no other position of the texts
starts one. -/
inductive Splits : Text → List (Text × Placeholder) → Text → Prop
  | last {t : Text} : Free t [] → Splits t [] t
  | piece {l t last : Text} {p : Placeholder} {pieces : List (Text × Placeholder)} :
      Free l (p.source ++ t) → Begins (p.source ++ t) p → Splits t pieces last →
      Splits (l ++ p.source ++ t) ((l, p) :: pieces) last

/-- The text of pieces, with something in the place of each placeholder. -/
def assembled (instead : Placeholder → Text) (pieces : List (Text × Placeholder)) (last : Text) :
    Text :=
  pieces.flatMap (fun piece => piece.1 ++ instead piece.2) ++ last

/-- The names of properties: a letter of ASCII or a low line, then word characters and hyphens. -/
def PropertyName (t : Text) : Prop :=
  ∃ c rest, t = .char c :: rest ∧ (c.isAlpha = true ∨ c = '_') ∧
    ∀ d ∈ rest, isWord d = true ∨ d = .char '-'

/-- The expression names a property of a known context and does nothing else. -/
def Names (expression head property : Text) : Prop :=
  expression = head ++ .char '.' :: property ∧ head ∈ contexts ∧ PropertyName property

/-- What stands for a placeholder: the value of the property that it names, or else itself. -/
def StandsFor (context : Context) (r : Text) (p : Placeholder) : Prop :=
  (∃ head property, Names p.expression head property ∧ r = lookup context head property) ∨
    (¬ ∃ head property, Names p.expression head property) ∧ r = p.source

/-! ### Named properties -/

theorem isProperty_iff {t : Text} : isProperty t = true ↔ PropertyName t := by
  constructor
  · intro named
    unfold isProperty at named
    split at named
    next c rest =>
      simp only [Bool.and_eq_true, Bool.or_eq_true, beq_iff_eq, List.all_eq_true] at named
      exact ⟨c, rest, rfl, named⟩
    next => simp at named
  · rintro ⟨c, rest, rfl, first, others⟩
    simp only [isProperty, Bool.and_eq_true, Bool.or_eq_true, beq_iff_eq, List.all_eq_true]
    exact ⟨first, others⟩

theorem dot_not_mem_contexts : ∀ head ∈ contexts, ∀ c ∈ head, (c != .char '.') = true := by decide

theorem reference?_eq_some {e head property : Text} :
    reference? e = some (head, property) ↔ Names e head property := by
  constructor
  · intro found
    unfold reference? at found
    split at found
    next front dot rest cut =>
      rw [List.span_eq_takeWhile_dropWhile] at cut
      obtain ⟨hf, hd⟩ := Prod.mk.inj cut
      have isDot := List.head?_dropWhile_not (· != CodePoint.char '.') e
      rw [hd] at isDot
      split at found
      next known =>
        obtain ⟨rfl, rfl⟩ := Prod.mk.inj (Option.some.inj found)
        simp only [Bool.and_eq_true, List.contains_iff_mem, isProperty_iff] at known
        refine ⟨?_, known⟩
        rw [← List.takeWhile_append_dropWhile (p := (· != CodePoint.char '.')) (l := e), hf, hd]
        simpa using isDot
      next => simp at found
    next => simp at found
  · rintro ⟨rfl, known, named⟩
    have cut : (head ++ .char '.' :: property).span (· != .char '.') =
        (head, .char '.' :: property) :=
      span_append (dot_not_mem_contexts head known) (by simp)
    rw [reference?, cut]
    simp [known, isProperty_iff.mpr named]

theorem replacement_standsFor (context : Context) (p : Placeholder) :
    StandsFor context (replacement context p) p := by
  unfold replacement
  split
  next head property named => exact .inl ⟨head, property, reference?_eq_some.mp named, rfl⟩
  next nothing =>
    refine .inr ⟨?_, rfl⟩
    rintro ⟨head, property, named⟩
    rw [reference?_eq_some.mpr named] at nothing
    contradiction

/-! ### One cut at most -/

theorem Free.not_begins {t l rest after : Text} {p : Placeholder} (free : Free t after)
    (whole : t = l ++ rest) (inside : rest ≠ []) : ¬ Begins (rest ++ after) p :=
  fun begins => free l rest whole inside p begins.wellFormed begins.starts

theorem Splits.last_or_piece {t last : Text} {pieces : List (Text × Placeholder)}
    (h : Splits t pieces last) :
    (pieces = [] ∧ last = t ∧ Free t []) ∨
      ∃ l p t' pieces', t = l ++ p.source ++ t' ∧ pieces = (l, p) :: pieces' ∧
        Free l (p.source ++ t') ∧ Begins (p.source ++ t') p ∧ Splits t' pieces' last := by
  cases h with
  | last free => exact .inl ⟨rfl, rfl, free⟩
  | piece free begins later => exact .inr ⟨_, _, _, _, rfl, rfl, free, begins, later⟩

theorem not_free_of_begins {l t : Text} {p : Placeholder} (begins : Begins (p.source ++ t) p) :
    ¬ Free (l ++ p.source ++ t) [] := by
  intro free
  refine free.not_begins (p := p) (List.append_assoc l p.source t) ?_ ?_
  · simp [begins.wellFormed.source_ne_nil]
  · rwa [List.append_nil]

theorem free_nil (after : Text) : Free [] after := by
  intro before rest whole inside
  exact absurd (List.append_eq_nil_iff.mp whole.symm).2 inside

theorem first_position {l l' t t' : Text} {p p' : Placeholder}
    (same : l ++ p.source ++ t = l' ++ p'.source ++ t') (free : Free l (p.source ++ t))
    (free' : Free l' (p'.source ++ t')) (begins : Begins (p.source ++ t) p)
    (begins' : Begins (p'.source ++ t') p') : l = l' := by
  rw [List.append_assoc, List.append_assoc] at same
  rcases List.append_eq_append_iff.mp same with ⟨more, rfl, tail⟩ | ⟨more, rfl, tail⟩
  · by_cases inside : more = []
    · simp [inside]
    · exact absurd (tail ▸ begins) (free'.not_begins rfl inside)
  · by_cases inside : more = []
    · simp [inside]
    · exact absurd (tail ▸ begins') (free.not_begins rfl inside)

theorem Splits.unique {t last last' : Text} {pieces pieces' : List (Text × Placeholder)}
    (h : Splits t pieces last) (h' : Splits t pieces' last') : pieces' = pieces ∧ last' = last := by
  induction h generalizing pieces' last' with
  | last free =>
    rcases h'.last_or_piece with ⟨rfl, rfl, -⟩ | ⟨l, p, t', pieces', rfl, -, -, begins, -⟩
    · exact ⟨rfl, rfl⟩
    · exact absurd free (not_free_of_begins begins)
  | @piece l t last p pieces free begins _ ih =>
    rcases h'.last_or_piece with
      ⟨rfl, rfl, whole⟩ | ⟨l', p', t', pieces', same, rfl, free', begins', later'⟩
    · exact absurd whole (not_free_of_begins begins)
    · obtain rfl := first_position same free free' begins begins'
      have rests : p.source ++ t = p'.source ++ t' := by
        simpa only [List.append_assoc, List.append_cancel_left_eq] using same
      obtain rfl := begins.unique (rests ▸ begins')
      obtain rfl := List.append_cancel_left rests
      obtain ⟨rfl, rfl⟩ := ih later'
      exact ⟨rfl, rfl⟩

/-! ### The cut that rendering follows -/

theorem renderFrom_skip (context : Context) (skip : Nat) (t : Text) :
    renderFrom context skip t = renderFrom context 0 (t.drop skip) := by
  induction t generalizing skip with
  | nil => cases skip <;> simp [renderFrom]
  | cons c cs ih =>
    cases skip with
    | zero => rfl
    | succ skip => rw [renderFrom, ih, List.drop_succ_cons]

theorem renderFrom_begins {context : Context} {p : Placeholder} {t : Text}
    (begins : Begins (p.source ++ t) p) :
    renderFrom context 0 (p.source ++ t) = replacement context p ++ renderFrom context 0 t := by
  have found := atStart?_iff_begins.mpr begins
  obtain ⟨c, cs, spelled⟩ := List.exists_cons_of_ne_nil begins.wellFormed.source_ne_nil
  have size : p.source.length - 1 = cs.length := by simp [spelled]
  rw [spelled, List.cons_append] at found ⊢
  rw [renderFrom, found]
  simp only [size]
  rw [renderFrom_skip, List.drop_left]

theorem Free.cons {c : CodePoint} {l after : Text} (nothing : atStart? (c :: (l ++ after)) = none)
    (free : Free l after) : Free (c :: l) after := by
  intro before rest whole inside
  cases before with
  | nil =>
    obtain rfl : c :: l = rest := whole
    exact atStart?_eq_none.mp nothing
  | cons b before => exact free before rest (List.cons.inj whole).2 inside

/-- A character that starts no placeholder joins the text in front. -/
theorem Splits.cons {c : CodePoint} {t last : Text} {pieces : List (Text × Placeholder)}
    (nothing : atStart? (c :: t) = none) (h : Splits t pieces last) :
    ∃ pieces' last', Splits (c :: t) pieces' last' ∧
      ∀ instead, assembled instead pieces' last' = c :: assembled instead pieces last := by
  cases h with
  | last free =>
    exact ⟨[], c :: t, .last (free.cons (by rwa [List.append_nil])), fun _ => rfl⟩
  | @piece l t _ p pieces free begins later =>
    refine ⟨(c :: l, p) :: pieces, last, ?_, fun _ => rfl⟩
    exact .piece (free.cons (by rwa [← List.append_assoc])) begins later

theorem exists_splits (context : Context) (t : Text) :
    ∃ pieces last, Splits t pieces last ∧
      renderFrom context 0 t = assembled (replacement context) pieces last := by
  -- What is left after a placeholder is shorter by more than one character.
  induction size : t.length using Nat.strong_induction_on generalizing t with
  | _ n ih =>
    subst size
    cases t with
    | nil => exact ⟨[], [], .last (free_nil []), rfl⟩
    | cons c cs =>
      cases found : atStart? (c :: cs) with
      | none =>
        obtain ⟨pieces, last, cut, rendered⟩ := ih cs.length (by simp) cs rfl
        obtain ⟨pieces', last', cut', joined⟩ := cut.cons found
        refine ⟨pieces', last', cut', ?_⟩
        rw [renderFrom, found, joined, rendered]
      | some p =>
        have begins := atStart?_iff_begins.mp found
        obtain ⟨rest, whole⟩ := begins.starts
        rw [← whole] at begins ⊢
        have shorter : rest.length < (p.source ++ rest).length := by
          have := List.length_pos_iff.mpr begins.wellFormed.source_ne_nil
          simp only [List.length_append]
          omega
        obtain ⟨pieces, last, cut, rendered⟩ := ih rest.length (whole ▸ shorter) rest rfl
        refine ⟨([], p) :: pieces, last, .piece (l := []) (free_nil _) begins cut, ?_⟩
        rw [renderFrom_begins begins, rendered]
        simp [assembled]

theorem Splits.text_eq {t last : Text} {pieces : List (Text × Placeholder)}
    (h : Splits t pieces last) : t = assembled source pieces last := by
  induction h with
  | last => simp [assembled]
  | @piece l t last p pieces _ _ _ ih =>
    have first : assembled source ((l, p) :: pieces) last =
        l ++ p.source ++ assembled source pieces last := by simp [assembled]
    rw [first, ← ih]

/-- Rendering replaces exactly the placeholders that name a property. -/
theorem render_splits (context : Context) (text : Text) :
    ∃ pieces last, Splits text pieces last ∧
      (∀ pieces' last', Splits text pieces' last' → pieces' = pieces ∧ last' = last) ∧
      text = assembled source pieces last ∧
      render context text = assembled (replacement context) pieces last ∧
      ∀ piece ∈ pieces, StandsFor context (replacement context piece.2) piece.2 := by
  obtain ⟨pieces, last, cut, rendered⟩ := exists_splits context text
  exact ⟨pieces, last, cut, fun _ _ other => cut.unique other, cut.text_eq, rendered,
    fun piece _ => replacement_standsFor context piece.2⟩

end JobMatrix.Placeholder
