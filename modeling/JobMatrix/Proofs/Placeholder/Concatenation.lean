import JobMatrix.Proofs.Placeholder.Splitting

set_option autoImplicit false

/-!
Rendering of a text that is put in front of another. A placeholder that has been found stays the
shortest one at its position, whatever follows the text, and where no opening braces stand outside of
the placeholders, nothing that follows can be taken for the end of one. Such a text is rendered as it
is on its own.
-/

namespace JobMatrix.Placeholder

open Text

/-- The opening braces stand at a position of the text. -/
def OpensAt (t : Text) (position : Nat) : Prop := opening <+: t.drop position

instance (t : Text) (position : Nat) : Decidable (OpensAt t position) :=
  inferInstanceAs (Decidable (opening <+: t.drop position))

/-- Opening braces at the position belong to one of the placeholders of a cut. -/
def Within (pieces : List (Text × Placeholder)) (position : Nat) : Prop :=
  ∃ front l p back, pieces = front ++ (l, p) :: back ∧
    (assembled source front l).length ≤ position ∧
    position + opening.length ≤ (assembled source front (l ++ p.source)).length

/-- All opening braces of the text belong to placeholders that rendering finds in it. -/
def Closed (t : Text) : Prop :=
  ∀ pieces last, Splits t pieces last → ∀ position, OpensAt t position → Within pieces position

/-- No opening braces start in the text, whatever the end of those that would start there. -/
def Shut (l after : Text) : Prop :=
  ∀ before rest, l = before ++ rest → rest ≠ [] → ¬ opening <+: rest ++ after

/-! ### Placeholders and what follows them -/

theorem WellFormed.opens {p : Placeholder} (hp : p.WellFormed) : opening <+: p.source := by
  obtain ⟨before, after, -, -, spelled⟩ := hp.spelled
  exact ⟨before ++ p.expression ++ after ++ closing, by simp only [spelled, List.append_assoc]⟩

/-- What follows a text does not make the placeholder at its start another one. -/
theorem Begins.append {t : Text} {p : Placeholder} (begins : Begins t p) (after : Text) :
    Begins (t ++ after) p := by
  refine ⟨begins.wellFormed, begins.starts.trans (List.prefix_append t after), fun q hq starts => ?_⟩
  by_contra shorter
  have inside : q.source.length ≤ t.length := by
    have := begins.starts.length_le
    omega
  have early := List.prefix_of_prefix_length_le starts (List.prefix_append t after) inside
  exact shorter (begins.shortest q hq early)

/-! ### Texts without opening braces -/

theorem Shut.tail {c : CodePoint} {l after : Text} (shut : Shut (c :: l) after) : Shut l after :=
  fun before rest whole => shut (c :: before) rest (by rw [whole, List.cons_append])

theorem Shut.starts_none {c : CodePoint} {l after : Text} (shut : Shut (c :: l) after) :
    atStart? (c :: (l ++ after)) = none :=
  atStart?_eq_none.mpr fun _ hq starts =>
    shut [] (c :: l) rfl (List.cons_ne_nil c l) (hq.opens.trans starts)

theorem renderFrom_shut (context : Context) {l after : Text} (shut : Shut l after) :
    renderFrom context 0 (l ++ after) = l ++ renderFrom context 0 after := by
  induction l with
  | nil => rfl
  | cons c l ih =>
    rw [List.cons_append, renderFrom, shut.starts_none]
    exact congrArg (c :: ·) (ih shut.tail)

/-- Opening braces that start in a text go over its end only where it ends in a part of them. -/
theorem opening_prefix_append {rest after : Text} (inside : rest ≠ [])
    (opens : opening <+: rest ++ after) :
    opening <+: rest ∨ rest = [.char '$'] ∨ rest = [.char '$', .char '\x7b'] := by
  match rest, inside with
  | [c], _ =>
    obtain ⟨rfl, -⟩ := List.cons_prefix_cons.mp opens
    exact .inr (.inl rfl)
  | [c, d], _ =>
    obtain ⟨rfl, later⟩ := List.cons_prefix_cons.mp opens
    obtain ⟨rfl, -⟩ := List.cons_prefix_cons.mp later
    exact .inr (.inr rfl)
  | c :: d :: e :: more, _ =>
    exact .inl (List.prefix_of_prefix_length_le opens (List.prefix_append _ after)
      (by simp [opening]))

/-- A text in which no opening braces stand, and which does not end in a part of them. -/
theorem shut_of_closed_end {t : Text} (nowhere : ∀ position, ¬ OpensAt t position)
    (noDollar : ¬ [.char '$'] <:+ t) (noBrace : ¬ [.char '$', .char '\x7b'] <:+ t) (after : Text) :
    Shut t after := by
  rintro before rest rfl inside opens
  rcases opening_prefix_append inside opens with whole | rfl | rfl
  · refine nowhere before.length ?_
    rwa [OpensAt, List.drop_left]
  · exact noDollar (List.suffix_append before _)
  · exact noBrace (List.suffix_append before _)

/-! ### Cuts -/

theorem assembled_cons (instead : Placeholder → Text) (l last : Text) (p : Placeholder)
    (pieces : List (Text × Placeholder)) :
    assembled instead ((l, p) :: pieces) last = l ++ instead p ++ assembled instead pieces last := by
  simp only [assembled, List.flatMap_cons, List.append_assoc]

theorem not_within_nil (position : Nat) : ¬ Within [] position := by
  rintro ⟨front, l, p, back, whole, -⟩
  simp at whole

/-- Opening braces of a cut belong to its first placeholder, or to one of those after it. -/
theorem Within.cons {l : Text} {p : Placeholder} {pieces : List (Text × Placeholder)}
    {position : Nat} (within : Within ((l, p) :: pieces) position) :
    (l.length ≤ position ∧ position + opening.length ≤ (l ++ p.source).length) ∨
      ∃ further, position = (l ++ p.source).length + further ∧ Within pieces further := by
  obtain ⟨front, l', p', back, whole, low, high⟩ := within
  cases front with
  | nil =>
    obtain ⟨first, -⟩ := List.cons.inj whole
    obtain ⟨rfl, rfl⟩ := Prod.mk.inj first
    exact .inl ⟨low, high⟩
  | cons first front =>
    obtain ⟨rfl, rfl⟩ := List.cons.inj whole
    rw [assembled_cons, List.length_append] at low high
    obtain ⟨further, rfl⟩ := Nat.exists_eq_add_of_le (Nat.le_of_add_right_le low)
    exact .inr ⟨further, rfl, front, l', p', back, rfl, by omega, by omega⟩

/-- Where all opening braces of a cut belong to its placeholders, none start in front of the first. -/
theorem shut_of_within {l t : Text} {p : Placeholder} {pieces : List (Text × Placeholder)}
    (hp : p.WellFormed)
    (closed : ∀ position, OpensAt (l ++ p.source ++ t) position →
      Within ((l, p) :: pieces) position) (after : Text) : Shut l (p.source ++ after) := by
  rintro before rest rfl inside opens
  have length := List.length_pos_iff.mpr inside
  -- The braces reach no further than the source of the placeholder, so they are there without `after`.
  have early : opening <+: rest ++ p.source := by
    rw [← List.append_assoc] at opens
    apply List.prefix_of_prefix_length_le opens (List.prefix_append _ after)
    rw [List.length_append]
    exact hp.opens.length_le.trans (Nat.le_add_left _ _)
  have here : OpensAt (before ++ rest ++ p.source ++ t) before.length := by
    rw [OpensAt, List.append_assoc, List.append_assoc, List.drop_left, ← List.append_assoc]
    exact early.trans (List.prefix_append _ t)
  rcases (closed before.length here).cons with ⟨low, -⟩ | ⟨further, same, -⟩
  · rw [List.length_append] at low
    omega
  · simp only [List.length_append] at same
    omega

/-- What comes after the first placeholder of a cut has its opening braces in the other ones. -/
theorem within_of_cons {l t : Text} {p : Placeholder} {pieces : List (Text × Placeholder)}
    (closed : ∀ position, OpensAt (l ++ p.source ++ t) position →
      Within ((l, p) :: pieces) position) :
    ∀ position, OpensAt t position → Within pieces position := by
  intro position opens
  have here : OpensAt (l ++ p.source ++ t) ((l ++ p.source).length + position) := by
    rwa [OpensAt, List.drop_length_add_append]
  rcases (closed _ here).cons with ⟨-, high⟩ | ⟨further, same, within⟩
  · rw [opening, List.length_cons] at high
    omega
  · obtain rfl := Nat.add_left_cancel same
    exact within

/-- A text whose opening braces belong to the placeholders of its cut is rendered by this cut,
whatever follows. -/
theorem Splits.renderFrom_append {a last : Text} {pieces : List (Text × Placeholder)}
    (context : Context) (cut : Splits a pieces last)
    (closed : ∀ position, OpensAt a position → Within pieces position)
    (noDollar : ¬ [.char '$'] <:+ a) (noBrace : ¬ [.char '$', .char '\x7b'] <:+ a) (b : Text) :
    renderFrom context 0 (a ++ b) =
      assembled (replacement context) pieces last ++ renderFrom context 0 b := by
  induction cut with
  | @last t free =>
    have nowhere : ∀ position, ¬ OpensAt t position := fun position opens =>
      not_within_nil position (closed position opens)
    rw [renderFrom_shut context (shut_of_closed_end nowhere noDollar noBrace b)]
    rfl
  | @piece l t last p pieces free begins later ih =>
    have shut := shut_of_within begins.wellFormed closed (t ++ b)
    have inTail {ending : Text} (suffix : ending <:+ t) : ending <:+ l ++ p.source ++ t :=
      suffix.trans (List.suffix_append _ t)
    have begins' : Begins (p.source ++ (t ++ b)) p := by
      rw [← List.append_assoc]
      exact begins.append b
    calc renderFrom context 0 (l ++ p.source ++ t ++ b)
        = renderFrom context 0 (l ++ (p.source ++ (t ++ b))) := by simp only [List.append_assoc]
      _ = l ++ (replacement context p ++ renderFrom context 0 (t ++ b)) := by
          rw [renderFrom_shut context shut, renderFrom_begins begins']
      _ = l ++ replacement context p ++
            (assembled (replacement context) pieces last ++ renderFrom context 0 b) := by
          rw [ih (within_of_cons closed) (fun ends => noDollar (inTail ends))
            (fun ends => noBrace (inTail ends)), List.append_assoc]
      _ = _ := by rw [assembled_cons, ← List.append_assoc]

/-- A text whose opening braces all belong to placeholders, and which does not end in a part of
opening braces, is rendered apart from what follows it. -/
theorem render_append (context : Context) (a b : Text) (closed : Closed a)
    (noDollar : ¬ [.char '$'] <:+ a) (noBrace : ¬ [.char '$', .char '\x7b'] <:+ a) :
    render context (a ++ b) = render context a ++ render context b := by
  obtain ⟨pieces, last, cut, -⟩ := exists_splits context a
  have followed (after : Text) := cut.renderFrom_append context (closed pieces last cut) noDollar
    noBrace after
  have alone : render context a = assembled (replacement context) pieces last := by
    simpa [render, renderFrom] using followed []
  rw [alone]
  exact followed b

/-- A placeholder with opening braces in its expression. -/
def nested : Placeholder :=
  ⟨ofString "$\x7b\x7b a $\x7b\x7b b \x7d\x7d", ofString "a $\x7b\x7b b"⟩

theorem splits_nested : Splits (ofString "x" ++ nested.source ++ [])
    [(ofString "x", nested)] [] := by
  refine .piece ?_ (atStart?_iff_begins.mp (by decide)) (.last (free_nil []))
  exact (free_nil _).cons (by decide)

theorem closed_nested : Closed (ofString "x" ++ nested.source ++ []) := by
  intro pieces last cut position opens
  obtain ⟨rfl, rfl⟩ := splits_nested.unique cut
  have inText : position < 15 := by
    by_contra outside
    have size : (ofString "x" ++ nested.source ++ []).length ≤ position := Nat.le_of_not_lt outside
    rw [OpensAt, List.drop_eq_nil_of_le size] at opens
    exact absurd opens (by decide)
  have places : ∀ position < 15, OpensAt (ofString "x" ++ nested.source ++ []) position →
      1 ≤ position ∧ position + 3 ≤ 15 := by decide
  obtain ⟨low, high⟩ := places position inText opens
  exact ⟨[], ofString "x", nested, [], rfl, low, high⟩

/-- Closing braces that follow are not taken for the end of the opening braces inside. -/
theorem nested_render_append :
    let context : Context := [("runner", [("os", "Linux")])]
    let front := ofString "x" ++ nested.source ++ []
    let back := ofString "\x7d\x7d $\x7b\x7b runner.os \x7d\x7d"
    (Closed front ∧ ¬ [.char '$'] <:+ front ∧ ¬ [.char '$', .char '\x7b'] <:+ front) ∧
      render context (front ++ back) = render context front ++ render context back := by
  intro context front back
  have noDollar : ¬ [.char '$'] <:+ front := by decide
  have noBrace : ¬ [.char '$', .char '\x7b'] <:+ front := by decide
  exact ⟨⟨closed_nested, noDollar, noBrace⟩,
    render_append context front back closed_nested noDollar noBrace⟩

end JobMatrix.Placeholder
