import JobMatrix.Proofs.Entries
import JobMatrix.Proofs.Json.Reading
import JobMatrix.Proofs.Json.Serialisable
import JobMatrix.Proofs.Number.Layout

set_option autoImplicit false

/-!
Values got back from their exchanged text. Numbers are spelled so that they are read as what they
were, texts are read back unless two of their surrogates make a pair, and a mapping has a member for
each of its keys when these are different texts.
-/

namespace JobMatrix

/-- A number as arithmetic makes it: an infinity, a zero, or a canonical significand and exponent. -/
inductive Binary64.Number : Binary64 → Prop where
  | infinite {negative : Bool} : Number (.infinite negative)
  | zero {negative : Bool} : Number (zero negative)
  | finite {negative : Bool} {m : Nat} {e : Int} : Canonical m e → Number (.finite negative m e)

namespace Value

/-- A value that JSON can tell from all others: numbers are numbers, there are no tuples, and the
keys of mappings are different texts. -/
inductive Exact : Value → Prop where
  | null : Exact .null
  | bool {b : Bool} : Exact (.bool b)
  | int {n : Int} : Exact (.int n)
  | float {x : Binary64} : x.Number → Exact (.float x)
  | text {s : Text} : Exact (.text s)
  | list {items : List Value} : (∀ v ∈ items, Exact v) → Exact (.list items)
  | record {members : Entries Value} : members.keys.Nodup → (∀ m ∈ members, Exact m.2) →
      Exact (.record members)

mutual

/-- The texts in a value, those of its keys included. -/
def texts : Value → List Text
  | .text s => [s]
  | .list items | .tuple items | .set items => itemTexts items
  | .map entries => entryTexts entries
  | _ => []

def itemTexts : List Value → List Text
  | [] => []
  | v :: rest => texts v ++ itemTexts rest

def entryTexts : List (Value × Value) → List Text
  | [] => []
  | (k, v) :: rest => texts k ++ texts v ++ entryTexts rest

end

/-- In no text of the value does a high surrogate stand directly in front of a low one. -/
def Unpaired (v : Value) : Prop := ∀ t ∈ v.texts, t.Unpaired

theorem itemTexts_eq_flatMap (items : List Value) : itemTexts items = items.flatMap texts := by
  induction items with
  | nil => rfl
  | cons v items ih => rw [itemTexts, ih, List.flatMap_cons]

theorem texts_record (members : Entries Value) :
    (record members).texts = members.flatMap fun m => m.1 :: m.2.texts := by
  change entryTexts (members.map fun m => (.text m.1, m.2)) = _
  induction members with
  | nil => rfl
  | cons m members ih =>
    rw [List.map_cons, entryTexts, ih, List.flatMap_cons]
    rfl

theorem unpaired_list_iff {items : List Value} :
    (Value.list items).Unpaired ↔ ∀ v ∈ items, v.Unpaired := by
  unfold Unpaired
  rw [texts, itemTexts_eq_flatMap, List.forall_mem_flatMap]

theorem unpaired_record_iff {members : Entries Value} :
    (record members).Unpaired ↔ ∀ m ∈ members, m.1.Unpaired ∧ m.2.Unpaired := by
  unfold Unpaired
  rw [texts_record, List.forall_mem_flatMap]
  simp only [List.forall_mem_cons]

end Value

/-! ### Numbers -/

namespace Json

theorem isLiteral_of_numeric {c : Char} (numeric : Binary64.IsNumeric c) : isLiteral c = true := by
  rcases numeric with digit | sign
  · simp [isLiteral, Char.isAlphanum, digit]
  · simp only [List.mem_cons, List.not_mem_nil, or_false] at sign
    rcases sign with rfl | rfl | rfl | rfl
    all_goals decide

/-- A word that starts as a number does is read as one. -/
theorem isNumber_signed {word : String} {negative : Bool} {cs : List Char}
    (spelled : word.toList = Binary64.signed negative cs) (inhabited : cs ≠ [])
    (first : ∀ c ∈ cs.head?, c.isDigit = true) (numeric : ∀ c ∈ cs, Binary64.IsNumeric c) :
    IsNumber word := by
  obtain ⟨c, rest, rfl⟩ := List.exists_cons_of_ne_nil inhabited
  have digit : c.isDigit = true := first c rfl
  have starts : ∃ d more, word.toList = d :: more ∧ (d.isDigit = true ∨ d = '-') := by
    cases negative with
    | false => exact ⟨c, rest, spelled, .inl digit⟩
    | true => exact ⟨'-', c :: rest, spelled, .inr rfl⟩
  obtain ⟨d, more, start, isFirst⟩ := starts
  have other {e : Char} {es : List Char} (letter : e.isDigit = false ∧ e ≠ '-') :
      word.toList ≠ e :: es := by
    intro same
    obtain ⟨rfl, -⟩ := List.cons.inj (start.symm.trans same)
    rcases isFirst with digit | rfl
    · exact absurd digit (by simp [letter.1])
    · exact letter.2 rfl
  refine ⟨by simp [start], fun e member => ?_, ?_, ?_, ?_⟩
  · rw [spelled, Binary64.signed] at member
    split at member
    next =>
      rcases List.mem_cons.mp member with rfl | later
      · decide
      · exact isLiteral_of_numeric (numeric e later)
    next => exact isLiteral_of_numeric (numeric e member)
  all_goals
    rintro rfl
    exact other (by decide) rfl

theorem isNumber_toString (n : Int) : IsNumber (toString n) := by
  have digits := allDigits_toDigits n.natAbs
  apply isNumber_signed (Integer.toList_toString n) Nat.toDigits_ne_nil
  · exact fun c member => digits c (List.mem_of_mem_head? member)
  · exact fun c member => .inl (digits c member)

end Json

namespace Value

open Json

theorem ofNumber?_toString {n : Int} (short : Integer.Short n) :
    ofNumber? (toString n) = some (.int n) := by
  have digits := allDigits_toDigits n.natAbs
  have whole : ((toString n).toList.all fun c => c.isDigit || c == '-') = true := by
    rw [Integer.toList_toString, List.all_eq_true]
    intro c member
    rw [Bool.or_eq_true, beq_iff_eq]
    unfold Binary64.signed at member
    split at member
    next =>
      rcases List.mem_cons.mp member with rfl | later
      · exact .inr rfl
      · exact .inl (digits c later)
    next => exact .inl (digits c member)
  rw [ofNumber?, if_pos whole, Integer.read_toString short]
  rfl

theorem ofNumber?_inexact {word : String} {c : Char} (member : c ∈ word.toList)
    (inexact : c.isDigit = false ∧ c ≠ '-') :
    ofNumber? word = (Binary64.read? 0 word.toList).map .float := by
  unfold ofNumber?
  rw [if_neg]
  intro whole
  have := List.all_eq_true.mp whole c member
  simp [inexact] at this

/-- A number is spelled as a number and read as it was. -/
theorem floatJson_spec {x : Binary64} (number : x.Number) :
    IsNumber (floatJson x) ∧ ofNumber? (floatJson x) = some (.float x) := by
  cases number with
  | @infinite negative =>
    cases negative
    · exact ⟨⟨by decide, List.all_eq_true.mp rfl, by decide⟩, rfl⟩
    · exact ⟨⟨by decide, List.all_eq_true.mp rfl, by decide⟩, rfl⟩
  | @zero negative =>
    cases negative
    · exact ⟨⟨by decide, List.all_eq_true.mp rfl, by decide⟩, rfl⟩
    · exact ⟨⟨by decide, List.all_eq_true.mp rfl, by decide⟩, rfl⟩
  | @finite negative m e canonical =>
    have spells := canonical.layout_spells
    have spelled := canonical.toList_text negative
    refine ⟨isNumber_signed spelled spells.inhabited spells.first spells.numeric, ?_⟩
    have within {c : Char} (member : c ∈ (Binary64.shortest m e).layout) :
        c ∈ (floatJson (.finite negative m e)).toList := by
      change c ∈ (Binary64.text (.finite negative m e)).toList
      rw [spelled, Binary64.signed]
      split
      next => exact List.mem_cons_of_mem _ member
      next => exact member
    have read := canonical.read?_text 0 negative
    rcases spells.inexact with point | exponent
    · rw [ofNumber?_inexact (within point) (by decide)]
      exact congrArg _ read
    · rw [ofNumber?_inexact (within exponent) (by decide)]
      exact congrArg _ read

/-! ### Lists and mappings -/

theorem ofItems?_eq_some {items : List Value} {js : List Json}
    (each : List.Forall₂ (fun v j => ofJson? j = some v) items js) : ofItems? js = some items := by
  induction each with
  | nil => rfl
  | cons first _ ih =>
    unfold ofItems?
    rw [first, ih]
    rfl

theorem ofMembers?_eq_some {members : Entries Value} {js : List (Text × Json)}
    (each : List.Forall₂ (fun m k => k.1 = m.1 ∧ ofJson? k.2 = some m.2) members js) :
    ofMembers? js = some (members.map fun m => (.text m.1, m.2)) := by
  induction each with
  | nil => rfl
  | @cons m k _ _ first _ ih =>
    obtain ⟨name, j⟩ := k
    obtain ⟨rfl, first⟩ := first
    unfold ofMembers?
    rw [first, ih]
    rfl

theorem putKey_record (members : Entries Value) (name : Text) (v : Value) :
    putKey (members.map fun m => (.text m.1, m.2)) (.text name) v =
      (members.set name v).map fun m => (.text m.1, m.2) := by
  induction members with
  | nil => rfl
  | cons m members ih =>
    obtain ⟨k, w⟩ := m
    rw [Entries.set_cons, List.map_cons, putKey, put]
    rw [putKey] at ih
    by_cases here : k = name
    · simp [here, same]
    · simp [here, same, ih]

/-- Different texts are different keys. -/
theorem ofPairs_record {members : Entries Value} (distinct : members.keys.Nodup) :
    ofPairs (members.map fun m => (.text m.1, m.2)) = members.map fun m => (.text m.1, m.2) := by
  have spelled (es : Entries Value) :
      putAll same (es.map fun m => (.text m.1, m.2)) (members.map fun m => (.text m.1, m.2)) =
        (es.update members).map fun m => (.text m.1, m.2) := by
    clear distinct
    induction members generalizing es with
    | nil => rfl
    | cons m members ih =>
      rw [Entries.update_cons, ← ih, ← putKey_record]
      rfl
  have made := spelled []
  rwa [← Entries.ofPairs_eq_update, Entries.ofPairs_eq_self distinct] at made

/-! ### Values -/

/-- The form of an exact value is read from its text, and stands for the value. -/
theorem Exact.readable {v : Value} (exact : v.Exact) (unpaired : v.Unpaired) {j : Json}
    (made : v.toJson = .ok j) : j.Readable ∧ ofJson? j = some v := by
  induction exact generalizing j with
  | null =>
    obtain rfl := Except.ok.inj made
    exact ⟨.null, rfl⟩
  | bool =>
    obtain rfl := Except.ok.inj made
    exact ⟨.bool, rfl⟩
  | int =>
    obtain ⟨short, rfl⟩ := toJson_int_eq_ok.mp made
    exact ⟨.number (isNumber_toString _), ofNumber?_toString short⟩
  | float number =>
    obtain rfl := Except.ok.inj made
    obtain ⟨isNumber, read⟩ := floatJson_spec number
    exact ⟨.number isNumber, read⟩
  | text =>
    obtain rfl := Except.ok.inj made
    exact ⟨.string (unpaired _ (List.mem_singleton_self _)), rfl⟩
  | @list items _ ih =>
    obtain ⟨js, rfl, each⟩ := toJson_list_eq_ok.mp made
    have unpaired := unpaired_list_iff.mp unpaired
    have here : ∀ v ∈ items, ∀ k, v.toJson = .ok k → k.Readable ∧ ofJson? k = some v :=
      fun v member _ made => ih v member (unpaired v member) made
    have both : List.Forall₂ (fun v k => k.Readable ∧ ofJson? k = some v) items js :=
      ((List.forall₂_and_left _ _).mpr ⟨here, each⟩).imp fun v k h => h.1 k h.2
    refine ⟨.array fun k member => ?_, ?_⟩
    · obtain ⟨v, -, readable, -⟩ := exists_mem_left_of_forall₂ both member
      exact readable
    · rw [ofJson?, ofItems?_eq_some (both.imp fun _ _ => And.right)]
      rfl
  | @record members distinct _ ih =>
    obtain ⟨js, rfl, each⟩ := toJson_record_eq_ok.mp made
    have unpaired := unpaired_record_iff.mp unpaired
    have here : ∀ m ∈ members, m.1.Unpaired ∧
        ∀ k, m.2.toJson = .ok k → k.Readable ∧ ofJson? k = some m.2 := by
      intro m member
      obtain ⟨name, value⟩ := unpaired m member
      exact ⟨name, fun _ made => ih m member value made⟩
    have both := (List.forall₂_and_left _ _).mpr ⟨here, each⟩
    refine ⟨.object (fun k member => ?_) fun k member => ?_, ?_⟩
    · obtain ⟨m, -, ⟨unpaired, -⟩, name, -⟩ := exists_mem_left_of_forall₂ both member
      exact name ▸ unpaired
    · obtain ⟨m, -, ⟨-, value⟩, -, made⟩ := exists_mem_left_of_forall₂ both member
      exact (value k.2 made).1
    · have found := ofMembers?_eq_some (both.imp fun m k h => ⟨h.2.1, (h.1.2 k.2 h.2.2).2⟩)
      rw [ofJson?, found]
      exact congrArg (fun entries => some (Value.map entries)) (ofPairs_record distinct)

end Value

end JobMatrix
