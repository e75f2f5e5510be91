import JobMatrix.Proofs.Number.Digits
import JobMatrix.Proofs.Number.Shortest

set_option autoImplicit false

/-!
Doubles read back from their texts. The layout of digits, whether by position or in scientific form,
is read as a number of the same value, and the double whose interval this lies in is the one that was
written.
-/

namespace JobMatrix.Binary64

variable {m : Nat} {e : Int}

/-! ### Decimal numbers as doubles -/

theorem ten_zpow_lt_iff {j k : Int} : (10 : ℚ) ^ j < 10 ^ k ↔ j < k :=
  zpow_lt_zpow_iff_right₀ (by norm_num)

theorem two_pow_le_ten_pow (n : Nat) : (2 : ℚ) ^ (3 * n : Int) ≤ 10 ^ (n : Int) := by
  rw [zpow_mul, zpow_natCast, zpow_natCast]
  exact pow_le_pow_left₀ (by norm_num) (by norm_num) n

/-- A decimal number is as large as the place of its first digit says. -/
theorem Decimal.value_bounds {d : Decimal} (positive : 0 < d.digits) :
    (10 : ℚ) ^ ((decimalLength d.digits : Int) + d.exponent - 1) ≤ d.value ∧
      d.value < 10 ^ ((decimalLength d.digits : Int) + d.exponent) := by
  obtain ⟨low, high⟩ := decimalLength_bounds positive
  have size : 0 < decimalLength d.digits := Nat.length_toDigits_pos
  have tens := ten_zpow_pos d.exponent
  constructor
  · rw [show (decimalLength d.digits : Int) + d.exponent - 1 =
      ((decimalLength d.digits - 1 : Nat) : Int) + d.exponent by omega, zpow_add₀ (by norm_num),
      zpow_natCast]
    have : (10 : ℚ) ^ (decimalLength d.digits - 1) ≤ d.digits := by exact_mod_cast low
    exact mul_le_mul_of_nonneg_right this tens.le
  · rw [zpow_add₀ (by norm_num), zpow_natCast]
    have : (d.digits : ℚ) < 10 ^ decimalLength d.digits := by exact_mod_cast high
    exact mul_lt_mul_of_pos_right this tens

/-- A number that lies in the interval of a double is neither too large nor too small to be read. -/
theorem RoundsTo.size_bounds (canonical : Canonical m e) {d : Decimal} (positive : 0 < d.digits)
    (rounds : RoundsTo m e d.value) :
    (decimalLength d.digits : Int) + d.exponent ≤ 400 ∧
      -400 ≤ (decimalLength d.digits : Int) + d.exponent := by
  obtain ⟨first, above⟩ := Decimal.value_bounds positive
  have least := canonical.least
  have finite := canonical.finite
  have unit := two_zpow_pos e
  unfold leastExponent at least
  unfold overflowExponent at finite
  constructor
  · have : (10 : ℚ) ^ ((decimalLength d.digits : Int) + d.exponent - 1) < 10 ^ (400 : Int) := by
      calc (10 : ℚ) ^ ((decimalLength d.digits : Int) + d.exponent - 1) ≤ d.value := first
        _ ≤ highest m e := rounds.le.2
        _ < 2 ^ (e + 53) := canonical.highest_lt
        _ ≤ 2 ^ (3 * 400 : Int) := two_zpow_le (by omega)
        _ ≤ 10 ^ (400 : Int) := two_pow_le_ten_pow 400
    have := ten_zpow_lt_iff.mp this
    omega
  · have half : (2 : ℚ) ^ (e - 1) ≤ lowest m e := by
      have large : (1 : ℚ) ≤ m := by exact_mod_cast canonical.positive
      have := le_lowest m e
      rw [zpow_sub_one₀ (by norm_num)]
      nlinarith
    have : (10 : ℚ) ^ (-400 : Int) < 10 ^ ((decimalLength d.digits : Int) + d.exponent) := by
      calc (10 : ℚ) ^ (-400 : Int) = (10 ^ (400 : Int))⁻¹ := zpow_neg _ _
        _ ≤ (2 ^ (3 * 400 : Int))⁻¹ := inv_anti₀ (two_zpow_pos _) (two_pow_le_ten_pow 400)
        _ = 2 ^ (-(3 * 400) : Int) := (zpow_neg _ _).symm
        _ ≤ 2 ^ (e - 1) := two_zpow_le (by omega)
        _ ≤ lowest m e := half
        _ ≤ d.value := rounds.le.1
        _ < 10 ^ ((decimalLength d.digits : Int) + d.exponent) := above
    exact (ten_zpow_lt_iff.mp this).le

theorem RoundsTo.digits_pos (canonical : Canonical m e) {d : Decimal} (rounds : RoundsTo m e d.value) :
    0 < d.digits := by
  have := canonical.lowest_pos.trans_le rounds.le.1
  by_contra none
  simp [Decimal.value, show d.digits = 0 by omega] at this

/-- A decimal number that lies in the interval of a double is read as it. -/
theorem RoundsTo.ofDecimal_eq (canonical : Canonical m e) {d : Decimal}
    (rounds : RoundsTo m e d.value) (negative : Bool) :
    ofDecimal negative d.digits d.exponent = .finite negative m e := by
  have positive := rounds.digits_pos canonical
  have size : (toString d.digits).length = decimalLength d.digits := by
    rw [Nat.toString_eq_ofList_toDigits, String.length_ofList]
    rfl
  obtain ⟨small, large⟩ := rounds.size_bounds canonical positive
  unfold ofDecimal
  rw [if_neg (by omega), size]
  dsimp only
  rw [if_neg (by omega), if_neg (by omega)]
  split
  next up =>
    obtain ⟨n, spelled⟩ := Int.eq_ofNat_of_zero_le up
    apply RoundsTo.ofRatio_eq Nat.one_pos canonical
    rw [Decimal.value, spelled, zpow_natCast] at rounds
    simpa [spelled] using rounds
  next down =>
    obtain ⟨n, spelled⟩ := Int.eq_ofNat_of_zero_le (show 0 ≤ -d.exponent by omega)
    apply RoundsTo.ofRatio_eq (Nat.pow_pos (by decide)) canonical
    rw [Decimal.value, show d.exponent = -(n : Int) by omega, zpow_neg, zpow_natCast] at rounds
    simpa [spelled, div_eq_mul_inv] using rounds

/-! ### Unsigned numbers -/

theorem stops_nil : Stops [] := by
  simp [Stops]

theorem stops_point (rest : List Char) : Stops ('.' :: rest) := by
  intro c same
  obtain rfl := Option.some.inj same
  decide

theorem stops_exponent (rest : List Char) : Stops ('e' :: rest) := by
  intro c same
  obtain rfl := Option.some.inj same
  decide

variable {whole fraction tail : List Char} {x : Int}

/-- A number with a point is read as all its digits, with the point where it stands. -/
theorem readUnsigned?_point (hw : AllDigits whole) (hf : AllDigits fraction) (inhabited : whole ≠ [])
    (stops : Stops tail) (exponent : readExponent? tail = some x) (negative : Bool) :
    readUnsigned? negative (whole ++ '.' :: (fraction ++ tail)) =
      some (ofDecimal negative (Nat.ofDigitChars 10 (whole ++ fraction) 0) (x - fraction.length)) := by
  have count : whole.length ≠ 0 := by simpa using inhabited
  unfold readUnsigned?
  simp only [readDigits_append hw (stops_point _), readDigits_append hf stops]
  simp [count, exponent, Nat.ofDigitChars_append]

theorem readUnsigned?_whole (hw : AllDigits whole) (inhabited : whole ≠ []) (stops : Stops tail)
    (pointless : tail.head? ≠ some '.') (exponent : readExponent? tail = some x) (negative : Bool) :
    readUnsigned? negative (whole ++ tail) =
      some (ofDecimal negative (Nat.ofDigitChars 10 whole 0) x) := by
  have count : whole.length ≠ 0 := by simpa using inhabited
  unfold readUnsigned?
  rw [readDigits_append hw stops]
  dsimp only
  split
  next => simp at pointless
  next => simp [count, exponent]

/-- The digits of the exponent of a scientific form, two at least. -/
def exponentDigits (x : Int) : List Char :=
  let size := Nat.toDigits 10 x.natAbs
  if size.length < 2 then '0' :: size else size

theorem exponentDigits_spec (x : Int) : AllDigits (exponentDigits x) ∧ exponentDigits x ≠ [] ∧
    Nat.ofDigitChars 10 (exponentDigits x) 0 = x.natAbs := by
  have digits := allDigits_toDigits x.natAbs
  unfold exponentDigits
  dsimp only
  split
  next =>
    refine ⟨List.forall_mem_cons.mpr ⟨rfl, digits⟩, by simp, ?_⟩
    rw [Nat.ofDigitChars_cons]
    exact Nat.ofDigitChars_ten_toDigits
  next => exact ⟨digits, Nat.toDigits_ne_nil, Nat.ofDigitChars_ten_toDigits⟩

/-- An exponent in scientific form, with its letter and its sign. -/
def exponentText (x : Int) : List Char := 'e' :: (if x < 0 then '-' else '+') :: exponentDigits x

theorem readExponent?_exponentText (x : Int) : readExponent? (exponentText x) = some x := by
  obtain ⟨digits, inhabited, value⟩ := exponentDigits_spec x
  have sign : readSign ((if x < 0 then '-' else '+') :: exponentDigits x) =
      (decide (x < 0), exponentDigits x) := by
    by_cases negative : x < 0 <;> simp [negative, readSign]
  obtain ⟨k, longer⟩ := Nat.exists_eq_succ_of_ne_zero (mt List.length_eq_zero_iff.mp inhabited)
  unfold exponentText readExponent?
  simp only [beq_self_eq_true, Bool.true_or, if_true, sign, readDigits_all digits, value, longer,
    Nat.zero_add]
  by_cases negative : x < 0
  · simp only [negative, decide_true, if_true, Option.some.injEq]
    omega
  · simp only [negative, decide_false, Bool.false_eq_true, if_false, Option.some.injEq]
    omega

/-! ### Layouts -/

theorem Decimal.parts_spec {d : Decimal} (positive : 0 < d.digits) :
    AllDigits d.parts.1 ∧ d.parts.1 ≠ [] ∧
      (Nat.ofDigitChars 10 d.parts.1 0 : ℚ) * 10 ^ (d.parts.2 - d.parts.1.length) = d.value := by
  unfold Decimal.parts
  dsimp only
  generalize spelled : Nat.toDigits 10 d.digits = cs
  have digits : AllDigits cs := spelled ▸ allDigits_toDigits d.digits
  have number : Nat.ofDigitChars 10 cs 0 = d.digits := spelled ▸ Nat.ofDigitChars_ten_toDigits
  obtain ⟨ds, z, rfl, stripped⟩ : ∃ ds z, cs = ds ++ List.replicate z '0' ∧
      (cs.reverse.dropWhile (· == '0')).reverse = ds := by
    refine ⟨_, (cs.reverse.takeWhile (· == '0')).length, ?_, rfl⟩
    have zeros : cs.reverse.takeWhile (· == '0') =
        List.replicate (cs.reverse.takeWhile (· == '0')).length '0' := by
      rw [List.eq_replicate_iff]
      exact ⟨rfl, fun c member => by simpa using List.mem_takeWhile_imp member⟩
    rw [← List.reverse_replicate, ← zeros, ← List.reverse_append, List.takeWhile_append_dropWhile,
      List.reverse_reverse]
  rw [stripped]
  rw [Nat.ofDigitChars_append, Nat.ofDigitChars_replicate_zero] at number
  obtain ⟨digits, -⟩ := allDigits_append.mp digits
  refine ⟨digits, ?_, ?_⟩
  · rintro rfl
    simp at number
    omega
  · rw [Decimal.value, ← number]
    push_cast
    rw [List.length_append, List.length_replicate, Nat.cast_add,
      show (ds.length : Int) + z + d.exponent - ds.length = z + d.exponent by ring,
      zpow_add₀ (by norm_num), zpow_natCast]
    ring

/-- A character of a number with a fraction or an exponent. -/
def IsNumeric (c : Char) : Prop := c.isDigit = true ∨ c ∈ ['.', 'e', '+', '-']

theorem numeric_of_allDigits {cs : List Char} (digits : AllDigits cs) : ∀ c ∈ cs, IsNumeric c :=
  fun c member => .inl (digits c member)

/-- The text begins and ends with digits, is seen to be no integer, and is read as digits of the
value. -/
structure Spells (cs : List Char) (v : ℚ) : Prop where
  inhabited : cs ≠ []
  numeric : ∀ c ∈ cs, IsNumeric c
  inexact : '.' ∈ cs ∨ 'e' ∈ cs
  first : ∀ c ∈ cs.head?, c.isDigit = true
  last : ∀ c ∈ cs.getLast?, c.isDigit = true
  read : ∀ negative, ∃ d : Decimal, d.value = v ∧
    readUnsigned? negative cs = some (ofDecimal negative d.digits d.exponent)

theorem head_isDigit {ds rest : List Char} (digits : AllDigits ds) (inhabited : ds ≠ []) :
    ∀ c ∈ (ds ++ rest).head?, c.isDigit = true := by
  intro c member
  rw [List.head?_append_of_ne_nil _ inhabited] at member
  exact digits c (List.mem_of_mem_head? member)

theorem last_isDigit {front ds : List Char} (digits : AllDigits ds) (inhabited : ds ≠ []) :
    ∀ c ∈ (front ++ ds).getLast?, c.isDigit = true := by
  intro c member
  rw [List.getLast?_append_of_ne_nil _ inhabited] at member
  exact digits c (List.mem_of_mem_getLast? member)

theorem spells_point (hw : AllDigits whole) (hf : AllDigits fraction) (hw' : whole ≠ [])
    (hf' : fraction ≠ []) : Spells (whole ++ '.' :: fraction)
      (Nat.ofDigitChars 10 (whole ++ fraction) 0 * 10 ^ (-fraction.length : Int)) := by
  refine ⟨by simp, ?_, .inl (by simp), head_isDigit hw hw', ?_, fun negative => ?_⟩
  · have point : IsNumeric '.' := .inr (by simp)
    have after := List.forall_mem_cons.mpr ⟨point, numeric_of_allDigits hf⟩
    exact List.forall_mem_append.mpr ⟨numeric_of_allDigits hw, after⟩
  · rw [List.append_cons]
    exact last_isDigit hf hf'
  · have read := readUnsigned?_point hw hf hw' stops_nil (x := 0) rfl negative
    rw [List.append_nil, Int.zero_sub] at read
    exact ⟨⟨_, _⟩, rfl, read⟩

/-- Digits with the point after the first one. -/
def mantissaText : List Char → List Char
  | [] => ['0']
  | [d] => [d]
  | d :: rest => d :: '.' :: rest

theorem numeric_mantissaText {ds : List Char} (digits : AllDigits ds) :
    ∀ c ∈ mantissaText ds, IsNumeric c := by
  unfold mantissaText
  split
  next => simp [IsNumeric]
  next => exact numeric_of_allDigits digits
  next d rest _ =>
    obtain ⟨first, later⟩ := List.forall_mem_cons.mp (numeric_of_allDigits digits)
    exact List.forall_mem_cons.mpr ⟨first, List.forall_mem_cons.mpr ⟨.inr (by simp), later⟩⟩

theorem numeric_exponentText (x : Int) : ∀ c ∈ exponentText x, IsNumeric c := by
  obtain ⟨digits, -⟩ := exponentDigits_spec x
  have sign : IsNumeric (if x < 0 then '-' else '+') := by
    split <;> exact .inr (by simp)
  have after := List.forall_mem_cons.mpr ⟨sign, numeric_of_allDigits digits⟩
  exact List.forall_mem_cons.mpr ⟨.inr (by simp), after⟩

theorem spells_scientific {ds : List Char} (digits : AllDigits ds) (inhabited : ds ≠ []) (x : Int) :
    Spells (mantissaText ds ++ exponentText x)
      (Nat.ofDigitChars 10 ds 0 * 10 ^ (x + 1 - ds.length)) := by
  obtain ⟨size, some, -⟩ := exponentDigits_spec x
  have exponent := readExponent?_exponentText x
  have numeric : ∀ c ∈ mantissaText ds ++ exponentText x, IsNumeric c :=
    List.forall_mem_append.mpr ⟨numeric_mantissaText digits, numeric_exponentText x⟩
  have inexact : 'e' ∈ mantissaText ds ++ exponentText x := by simp [exponentText]
  have last (front : List Char) : ∀ c ∈ (front ++ exponentText x).getLast?, c.isDigit = true := by
    rw [exponentText, List.append_cons, List.append_cons]
    exact last_isDigit size some
  cases ds with
  | nil => contradiction
  | cons d rest =>
    obtain ⟨digit, digits⟩ := List.forall_mem_cons.mp digits
    have single : AllDigits [d] := by simpa [AllDigits] using digit
    cases rest with
    | nil =>
      have first : ∀ c ∈ ([d] ++ exponentText x).head?, c.isDigit = true :=
        head_isDigit single (by simp)
      refine ⟨by simp [mantissaText], numeric, .inr inexact, first, last _, fun negative => ?_⟩
      have read := readUnsigned?_whole single (by simp) (stops_exponent _) (by simp) exponent negative
      refine ⟨⟨_, _⟩, ?_, read⟩
      simp only [Decimal.value, List.length_singleton]
      congr 2
      push_cast
      ring
    | cons d' rest =>
      have first : ∀ c ∈ (mantissaText (d :: d' :: rest) ++ exponentText x).head?, c.isDigit = true := by
        simpa [mantissaText] using digit
      refine ⟨by simp [mantissaText], numeric, .inr inexact, first, last _, fun negative => ?_⟩
      have read := readUnsigned?_point single digits (by simp) (stops_exponent _) exponent negative
      refine ⟨⟨_, _⟩, ?_, read⟩
      simp only [Decimal.value, List.length_cons]
      congr 2
      push_cast
      ring

section Positions

variable {ds : List Char} {point : Int}

theorem allDigits_zero : AllDigits ['0'] := allDigits_zeros 1

/-- The point stands in front of all digits. -/
theorem spells_leading (digits : AllDigits ds) (inhabited : ds ≠ []) (before : point ≤ 0) :
    Spells ('0' :: '.' :: List.replicate (-point).toNat '0' ++ ds)
      (Nat.ofDigitChars 10 ds 0 * 10 ^ (point - ds.length)) := by
  have fraction : AllDigits (List.replicate (-point).toNat '0' ++ ds) :=
    allDigits_append.mpr ⟨allDigits_zeros _, digits⟩
  have spelled := spells_point allDigits_zero fraction (by simp) (by simp [inhabited])
  have number : Nat.ofDigitChars 10 (['0'] ++ (List.replicate (-point).toNat '0' ++ ds)) 0 =
      Nat.ofDigitChars 10 ds 0 := by
    rw [Nat.ofDigitChars_append, Nat.ofDigitChars_append]
    exact congrArg _ Nat.ofDigitChars_replicate_zero
  have place : (-(List.replicate (-point).toNat '0' ++ ds).length : Int) = point - ds.length := by
    rw [List.length_append, List.length_replicate]
    omega
  rw [number, place] at spelled
  exact spelled

/-- The point stands behind all digits. -/
theorem spells_trailing (digits : AllDigits ds) (inhabited : ds ≠ []) (after : 0 < point)
    (large : ds.length ≤ point.toNat) :
    Spells (ds ++ List.replicate (point.toNat - ds.length) '0' ++ ['.', '0'])
      (Nat.ofDigitChars 10 ds 0 * 10 ^ (point - ds.length)) := by
  have whole : AllDigits (ds ++ List.replicate (point.toNat - ds.length) '0') :=
    allDigits_append.mpr ⟨digits, allDigits_zeros _⟩
  have spelled := spells_point whole allDigits_zero (by simp [inhabited]) (by simp)
  have number : Nat.ofDigitChars 10 (ds ++ List.replicate (point.toNat - ds.length) '0' ++ ['0']) 0 =
      10 * (10 ^ (point.toNat - ds.length) * Nat.ofDigitChars 10 ds 0) := by
    rw [Nat.ofDigitChars_append, Nat.ofDigitChars_append, Nat.ofDigitChars_replicate_zero]
    rfl
  have place : point - ds.length = ((point.toNat - ds.length : Nat) : Int) := by omega
  rw [number] at spelled
  rw [place, zpow_natCast]
  convert spelled using 1
  push_cast [List.length_singleton]
  rw [zpow_neg, zpow_one]
  ring

/-- The point stands between two digits. -/
theorem spells_inner (digits : AllDigits ds) (inhabited : ds ≠ []) (after : 0 < point)
    (small : point.toNat < ds.length) : Spells (ds.take point.toNat ++ '.' :: ds.drop point.toNat)
      (Nat.ofDigitChars 10 ds 0 * 10 ^ (point - ds.length)) := by
  have whole : AllDigits (ds.take point.toNat) :=
    fun c member => digits c (List.mem_of_mem_take member)
  have fraction : AllDigits (ds.drop point.toNat) :=
    fun c member => digits c (List.mem_of_mem_drop member)
  have some : ds.take point.toNat ≠ [] := by
    simp only [ne_eq, List.take_eq_nil_iff, inhabited, or_false]
    omega
  have more : ds.drop point.toNat ≠ [] := by
    simp only [ne_eq, List.drop_eq_nil_iff]
    omega
  have spelled := spells_point whole fraction some more
  have place : (-(ds.drop point.toNat).length : Int) = point - ds.length := by
    rw [List.length_drop]
    omega
  rw [List.take_append_drop, place] at spelled
  exact spelled

end Positions

/-- The layout of digits has their value. -/
theorem Decimal.layout_spells {d : Decimal} (positive : 0 < d.digits) : Spells d.layout d.value := by
  obtain ⟨digits, inhabited, value⟩ := Decimal.parts_spec positive
  unfold Decimal.layout
  revert digits inhabited value
  generalize d.parts = p
  obtain ⟨ds, point⟩ := p
  intro digits inhabited value
  dsimp only at digits inhabited value ⊢
  rw [← value]
  split
  next =>
    split
    next before => exact spells_leading digits inhabited before
    next after =>
      split
      next large => exact spells_trailing digits inhabited (by omega) large
      next small => exact spells_inner digits inhabited (by omega) (by omega)
  next =>
    have spelled := spells_scientific digits inhabited (point - 1)
    rw [show point - 1 + 1 = point by ring] at spelled
    exact spelled

/-! ### Texts -/

theorem toLower_of_isDigit {c : Char} (digit : c.isDigit = true) : c.toLower = c := by
  have small := toNat_of_isDigit digit
  refine dif_neg ?_
  rintro ⟨low, -⟩
  have low : 65 ≤ c.toNat := low
  omega

/-- A text that begins with a digit is no word. -/
theorem beq_word_eq_false {cs : List Char} (inhabited : cs ≠ [])
    (first : ∀ c ∈ cs.head?, c.isDigit = true) {word : String} {l : Char} {ls : List Char}
    (spelled : word.toList = l :: ls) (letter : l.isDigit = false) :
    (String.ofList (cs.map Char.toLower) == word) = false := by
  rw [beq_eq_false_iff_ne]
  rintro rfl
  obtain ⟨c, rest, rfl⟩ := List.exists_cons_of_ne_nil inhabited
  have digit := first c rfl
  rw [String.toList_ofList, List.map_cons, toLower_of_isDigit digit] at spelled
  obtain ⟨rfl, -⟩ := List.cons.inj spelled
  exact absurd letter (by simp [digit])

theorem Spells.read?_signed {cs : List Char} {v : ℚ} (spells : Spells cs v) (mark : Nat)
    (negative : Bool) : read? mark (signed negative cs) = readUnsigned? negative cs := by
  unfold read?
  rw [trimNumber_signed spells.inhabited spells.first spells.last, readSign_signed spells.first]
  have notWord {word : String} {l : Char} {ls : List Char} (spelled : word.toList = l :: ls) :=
    beq_word_eq_false spells.inhabited spells.first spelled
  dsimp only
  rw [notWord rfl (by decide), notWord rfl (by decide), notWord rfl (by decide)]
  simp

theorem Canonical.toList_text (canonical : Canonical m e) (negative : Bool) :
    (text (.finite negative m e)).toList = signed negative (shortest m e).layout := by
  rw [text, if_neg canonical.positive.ne', String.toList_ofList]
  rfl

theorem Canonical.layout_spells (canonical : Canonical m e) :
    Spells (shortest m e).layout (shortest m e).value :=
  Decimal.layout_spells (canonical.roundsTo_shortest.digits_pos canonical)

/-- The text of a double is read as the double. -/
theorem Canonical.read?_text (canonical : Canonical m e) (mark : Nat) (negative : Bool) :
    read? mark (text (.finite negative m e)).toList = some (.finite negative m e) := by
  have rounds := canonical.roundsTo_shortest
  have spells := canonical.layout_spells
  obtain ⟨d, value, read⟩ := spells.read negative
  rw [canonical.toList_text, spells.read?_signed, read]
  rw [← value] at rounds
  rw [rounds.ofDecimal_eq canonical]

end JobMatrix.Binary64
