import JobMatrix.Proofs.Number.Rounding
import Mathlib.Data.Nat.Cast.Order.Field
import Mathlib.Data.Rat.Floor

set_option autoImplicit false

/-!
The shortest digits of a double lie in its rounding interval. Grids of powers of ten are compared
with the interval in whole numbers; and the interval is wider than a step of the grid of seventeen
digits, so that the search does not come to its end without having found a number.
-/

namespace JobMatrix.Binary64

variable {m : Nat} {e k : Int}

/-- What the digits stand for. -/
def Decimal.value (d : Decimal) : ℚ := d.digits * 10 ^ d.exponent

theorem ten_zpow_pos (k : Int) : (0 : ℚ) < 10 ^ k := zpow_pos (by norm_num) k

/-! ### The interval -/

theorem lowest_lt (m : Nat) (e : Int) : lowest m e < m * 2 ^ e := by
  have := two_zpow_pos e
  unfold lowest
  split
  next => nlinarith
  next => nlinarith

theorem lt_highest (m : Nat) (e : Int) : (m : ℚ) * 2 ^ e < highest m e := by
  have := two_zpow_pos e
  unfold highest
  nlinarith

theorem roundsTo_of_between {x : ℚ} (above : lowest m e < x) (below : x < highest m e) :
    RoundsTo m e x := by
  unfold RoundsTo
  split
  next => exact ⟨above.le, below.le⟩
  next => exact ⟨above, below⟩

theorem roundsTo_self (m : Nat) (e : Int) : RoundsTo m e (m * 2 ^ e) :=
  roundsTo_of_between (lowest_lt m e) (lt_highest m e)

theorem RoundsTo.between {x y z : ℚ} (hx : RoundsTo m e x) (hz : RoundsTo m e z) (above : x ≤ y)
    (below : y ≤ z) : RoundsTo m e y := by
  unfold RoundsTo at *
  by_cases even : m % 2 = 0
  · rw [if_pos even] at *
    exact ⟨hx.1.trans above, below.trans hz.2⟩
  · rw [if_neg even] at *
    exact ⟨hx.1.trans_le above, below.trans_lt hz.2⟩

/-! ### Grids -/

/-- Both sides of a comparison of `10 ^ k` with `2 ^ quarter`, made whole. -/
def gridScale (k quarter : Int) : Nat :=
  (if 0 ≤ k then 1 else Nat.pow 10 (-k).toNat) * (if 0 ≤ quarter then Nat.pow 2 quarter.toNat else 1)

def gridStep (k quarter : Int) : Nat :=
  (if 0 ≤ k then Nat.pow 10 k.toNat else 1) * (if 0 ≤ quarter then 1 else Nat.pow 2 (-quarter).toNat)

/-- A number of the grid, in whole units, lies in the interval. -/
def inside (m : Nat) (e : Int) (scale x : Nat) : Bool :=
  let (low, high, closed) := roundingInterval m e
  if closed then low * scale ≤ x && x ≤ high * scale else low * scale < x && x < high * scale

theorem nearestOnGrid?_eq (m : Nat) (e k : Int) : nearestOnGrid? m e k =
    (let scale := gridScale k (e - 2)
    let step := gridStep k (e - 2)
    let value := 4 * m * scale
    let q := value / step
    let below := inside m e scale (q * step)
    let above := inside m e scale ((q + 1) * step)
    if below && above then
      let before := value - q * step
      let after := (q + 1) * step - value
      if before < after || (before == after && q % 2 == 0) then some ⟨q, k⟩ else some ⟨q + 1, k⟩
    else if below then some ⟨q, k⟩
    else if above then some ⟨q + 1, k⟩
    else none) := rfl

theorem split_zpow (base : Nat) (positive : 0 < base) (k : Int) :
    ((if 0 ≤ k then Nat.pow base k.toNat else 1 : Nat) : ℚ) =
      base ^ k * ((if 0 ≤ k then 1 else Nat.pow base (-k).toNat : Nat) : ℚ) := by
  have cast : (base : ℚ) ≠ 0 := by exact_mod_cast positive.ne'
  split
  next up =>
    obtain ⟨n, rfl⟩ := Int.eq_ofNat_of_zero_le up
    simp
  next down =>
    obtain ⟨n, spelled⟩ := Int.eq_ofNat_of_zero_le (show 0 ≤ -k by omega)
    obtain rfl : k = -n := by omega
    simp [cast]

theorem gridScale_pos (k quarter : Int) : 0 < gridScale k quarter := by
  unfold gridScale
  apply Nat.mul_pos <;> split <;> simp

theorem gridStep_eq (k quarter : Int) :
    (gridStep k quarter : ℚ) * 2 ^ quarter = 10 ^ k * gridScale k quarter := by
  have tens := split_zpow 10 (by decide) k
  have twos := split_zpow 2 (by decide) quarter
  simp only [gridStep, gridScale, Nat.cast_mul, tens, twos]
  push_cast
  ring

theorem gridStep_pos (k quarter : Int) : 0 < gridStep k quarter := by
  unfold gridStep
  apply Nat.mul_pos <;> split <;> simp

/-- In whole units, multiples of grid steps and of quarters are the numbers themselves, all multiplied
by one factor. -/
theorem exists_unit (e k : Int) : ∃ r : ℚ, 0 < r ∧
    (∀ j : Nat, ((j * gridStep k (e - 2) : Nat) : ℚ) = j * 10 ^ k * r) ∧
      ∀ c : Nat, ((c * gridScale k (e - 2) : Nat) : ℚ) = c / 4 * 2 ^ e * r := by
  have scale : (0 : ℚ) < gridScale k (e - 2) := by exact_mod_cast gridScale_pos k (e - 2)
  have quarter := two_zpow_pos (e - 2)
  have quarters : (2 : ℚ) ^ e = 4 * 2 ^ (e - 2) := by
    rw [zpow_sub₀ (by norm_num)]
    ring
  refine ⟨gridScale k (e - 2) / 2 ^ (e - 2), div_pos scale quarter, fun j => ?_, fun c => ?_⟩
  · rw [Nat.cast_mul, mul_assoc, ← mul_div_assoc, ← gridStep_eq, mul_div_cancel_right₀ _ quarter.ne']
  · rw [Nat.cast_mul, quarters]
    field_simp

theorem roundingInterval_low (positive : 0 < m) (e : Int) :
    ((roundingInterval m e).1 : ℚ) / 4 * 2 ^ e = lowest m e := by
  unfold roundingInterval lowest
  by_cases power : m = 2 ^ 52 ∧ leastExponent < e
  · rw [if_pos power, if_pos (by simpa using power), Nat.cast_sub (by omega)]
    push_cast
    ring
  · rw [if_neg power, if_neg (by simpa using power), Nat.cast_sub (by omega)]
    push_cast
    ring

theorem roundingInterval_high (m : Nat) (e : Int) :
    ((roundingInterval m e).2.1 : ℚ) / 4 * 2 ^ e = highest m e := by
  simp only [roundingInterval, highest]
  push_cast
  ring

theorem inside_iff (positive : 0 < m) (e k : Int) (j : Nat) :
    inside m e (gridScale k (e - 2)) (j * gridStep k (e - 2)) = true ↔ RoundsTo m e (j * 10 ^ k) := by
  obtain ⟨r, unit, steps, quarters⟩ := exists_unit e k
  have low := roundingInterval_low positive e
  have high := roundingInterval_high m e
  have le_iff {a b : ℚ} : a * r ≤ b * r ↔ a ≤ b := mul_le_mul_iff_of_pos_right unit
  have lt_iff {a b : ℚ} : a * r < b * r ↔ a < b := mul_lt_mul_iff_of_pos_right unit
  unfold inside RoundsTo
  by_cases even : m % 2 = 0
  · have closed : (roundingInterval m e).2.2 = true := by simpa [roundingInterval] using even
    simp only [closed, even, if_true, Bool.and_eq_true, decide_eq_true_eq]
    rw [← Nat.cast_le (α := ℚ), ← Nat.cast_le (α := ℚ), steps, quarters, quarters, low, high, le_iff,
      le_iff]
  · have isOpen : (roundingInterval m e).2.2 = false := by simpa [roundingInterval] using even
    simp only [isOpen, even, Bool.false_eq_true, if_false, Bool.and_eq_true, decide_eq_true_eq]
    rw [← Nat.cast_lt (α := ℚ), ← Nat.cast_lt (α := ℚ), steps, quarters, quarters, low, high, lt_iff,
      lt_iff]

/-- What is found on a grid lies in the interval. -/
theorem roundsTo_of_nearestOnGrid? (positive : 0 < m) {d : Decimal}
    (found : nearestOnGrid? m e k = some d) : RoundsTo m e d.value := by
  have lies : d.exponent = k ∧
      inside m e (gridScale k (e - 2)) (d.digits * gridStep k (e - 2)) = true := by
    rw [nearestOnGrid?_eq] at found
    dsimp only at found
    split at found
    next both =>
      obtain ⟨below, above⟩ := Bool.and_eq_true_iff.mp both
      split at found
      next =>
        obtain rfl := Option.some.inj found
        exact ⟨rfl, below⟩
      next =>
        obtain rfl := Option.some.inj found
        exact ⟨rfl, above⟩
    next =>
      split at found
      next below =>
        obtain rfl := Option.some.inj found
        exact ⟨rfl, below⟩
      next =>
        split at found
        next above =>
          obtain rfl := Option.some.inj found
          exact ⟨rfl, above⟩
        next => contradiction
  obtain ⟨rfl, lies⟩ := lies
  exact (inside_iff positive e d.exponent d.digits).mp lies

theorem exists_nearestOnGrid?_of_inside {q : Nat}
    (quotient : 4 * m * gridScale k (e - 2) / gridStep k (e - 2) = q)
    (near : inside m e (gridScale k (e - 2)) (q * gridStep k (e - 2)) = true ∨
      inside m e (gridScale k (e - 2)) ((q + 1) * gridStep k (e - 2)) = true) :
    ∃ d, nearestOnGrid? m e k = some d := by
  rw [nearestOnGrid?_eq]
  dsimp only
  rw [quotient]
  split
  next => split <;> exact ⟨_, rfl⟩
  next notBoth =>
    split
    next => exact ⟨_, rfl⟩
    next notBelow =>
      rcases near with below | above
      · exact absurd below notBelow
      · exact ⟨_, if_pos above⟩

/-- A grid that has some number in the interval has one among the two next to the double, as the
interval has no gaps. -/
theorem exists_nearestOnGrid? (positive : 0 < m) {j : Nat} (rounds : RoundsTo m e (j * 10 ^ k)) :
    ∃ d, nearestOnGrid? m e k = some d := by
  obtain ⟨r, unit, steps, quarters⟩ := exists_unit e k
  have step := gridStep_pos k (e - 2)
  have tens := ten_zpow_pos k
  apply exists_nearestOnGrid?_of_inside rfl
  rw [inside_iff positive, inside_iff positive]
  have value : ((4 * m * gridScale k (e - 2) : Nat) : ℚ) = m * 2 ^ e * r := by
    rw [quarters]
    push_cast
    ring
  generalize quotient : 4 * m * gridScale k (e - 2) / gridStep k (e - 2) = q
  have below : (q : ℚ) * 10 ^ k ≤ m * 2 ^ e := by
    have : q * gridStep k (e - 2) ≤ 4 * m * gridScale k (e - 2) := by
      rw [← quotient]
      exact Nat.div_mul_le_self _ _
    rw [← Nat.cast_le (α := ℚ), steps, value] at this
    exact le_of_mul_le_mul_right this unit
  have above : (m : ℚ) * 2 ^ e < (q + 1 : Nat) * 10 ^ k := by
    have : 4 * m * gridScale k (e - 2) < (q + 1) * gridStep k (e - 2) := by
      rw [← quotient, ← Nat.div_lt_iff_lt_mul step]
      omega
    rw [← Nat.cast_lt (α := ℚ), steps, value] at this
    exact lt_of_mul_lt_mul_right this unit.le
  by_cases side : j ≤ q
  · have : (j : ℚ) * 10 ^ k ≤ q * 10 ^ k := by
      have : (j : ℚ) ≤ q := by exact_mod_cast side
      gcongr
    exact .inl (rounds.between (roundsTo_self m e) this below)
  · have : ((q + 1 : Nat) : ℚ) * 10 ^ k ≤ j * 10 ^ k := by
      have : ((q + 1 : Nat) : ℚ) ≤ j := by exact_mod_cast (show q + 1 ≤ j by omega)
      gcongr
    exact .inr ((roundsTo_self m e).between rounds above.le this)

/-! ### Seventeen digits -/

theorem exists_multiple_between {step low high : ℚ} (positive : 0 < step) (start : 0 ≤ low)
    (wide : step < high - low) : ∃ j : Nat, low < j * step ∧ j * step < high := by
  have before := Nat.floor_le (div_nonneg start positive.le)
  have after := Nat.lt_floor_add_one (low / step)
  rw [le_div_iff₀ positive] at before
  rw [div_lt_iff₀ positive] at after
  refine ⟨⌊low / step⌋₊ + 1, ?_, ?_⟩
  · push_cast
    exact after
  · push_cast
    linarith

/-- A grid has a number in the interval when its steps are less than a part of the double that is
below the distance of doubles. -/
theorem Canonical.exists_on_grid (canonical : Canonical m e)
    (fine : (10 : ℚ) ^ (k + 16) ≤ m * 2 ^ e) : ∃ j : Nat, RoundsTo m e (j * 10 ^ k) := by
  have tens := ten_zpow_pos k
  have unit := two_zpow_pos e
  have bounded : (m : ℚ) + 1 ≤ 2 ^ 53 := by exact_mod_cast canonical.bounded
  rw [zpow_add₀ (by norm_num)] at fine
  have wide : (10 : ℚ) ^ k < highest m e - lowest m e := by
    unfold highest lowest
    norm_num at bounded fine
    split
    next power =>
      rw [power.1] at fine ⊢
      norm_num at fine ⊢
      nlinarith
    next => nlinarith
  obtain ⟨j, above, below⟩ := exists_multiple_between tens canonical.lowest_pos.le wide
  exact ⟨j, roundsTo_of_between above below⟩

/-! ### The search -/

theorem decimalLength_bounds {n : Nat} (positive : 0 < n) :
    10 ^ (decimalLength n - 1) ≤ n ∧ n < 10 ^ decimalLength n := by
  have size : 0 < decimalLength n := Nat.length_toDigits_pos
  refine ⟨?_, (Nat.length_toDigits_le_iff (by decide) size).mp le_rfl⟩
  by_cases single : decimalLength n = 1
  · rw [single]
    exact positive
  · by_contra small
    have := (Nat.length_toDigits_le_iff (b := 10) (by decide) (by omega)).mpr (not_le.mp small)
    unfold decimalLength at *
    omega

/-- The number has its first digit at the place that was found for it. -/
theorem decimalPlaces_le {num den : Nat} (hn : 0 < num) (hd : 0 < den) :
    (10 : ℚ) ^ (decimalPlaces num den - 1) ≤ num / den := by
  have cast : (0 : ℚ) < num := by exact_mod_cast hn
  have cast' : (0 : ℚ) < den := by exact_mod_cast hd
  unfold decimalPlaces
  split
  next large =>
    have positive : 0 < num / den := Nat.div_pos large hd
    have size : 0 < decimalLength (num / den) := Nat.length_toDigits_pos
    rw [show (decimalLength (num / den) : Int) - 1 = ((decimalLength (num / den) - 1 : Nat) : Int) by
      omega, zpow_natCast]
    calc (10 : ℚ) ^ (decimalLength (num / den) - 1) ≤ ((num / den : Nat) : ℚ) := by
          exact_mod_cast (decimalLength_bounds positive).1
      _ ≤ num / den := Nat.cast_div_le
  next small =>
    have positive : 0 < den / num := Nat.div_pos (by omega) hn
    have size : 0 < decimalLength (den / num) := Nat.length_toDigits_pos
    dsimp only
    split
    next exact =>
      have product : (num : ℚ) * 10 ^ (decimalLength (den / num) - 1) = den := by exact_mod_cast exact
      rw [show 2 - (decimalLength (den / num) : Int) - 1 =
        -((decimalLength (den / num) - 1 : Nat) : Int) by omega, zpow_neg, zpow_natCast, ← product]
      apply le_of_eq
      field_simp
    next =>
      have above : den < num * 10 ^ decimalLength (den / num) := by
        have := (decimalLength_bounds positive).2
        rwa [Nat.div_lt_iff_lt_mul hn, Nat.mul_comm] at this
      rw [show 1 - (decimalLength (den / num) : Int) - 1 = -(decimalLength (den / num) : Int) by omega,
        zpow_neg, zpow_natCast, inv_le_iff_one_le_mul₀ (by positivity), div_mul_eq_mul_div,
        le_div_iff₀ cast', one_mul]
      exact_mod_cast above.le

theorem shortestFrom_spec (places : Int) (tries count last : Nat) (reached : count ≤ last)
    (inReach : last < count + tries) (there : ∃ d, nearestOnGrid? m e (places - last) = some d) :
    ∃ k, nearestOnGrid? m e k = some (shortestFrom m e places tries count) := by
  induction tries generalizing count with
  | zero => omega
  | succ tries ih =>
    unfold shortestFrom
    split
    next d found => exact ⟨_, found⟩
    next none =>
      have later : count ≠ last := by
        rintro rfl
        obtain ⟨d, found⟩ := there
        exact absurd (none.symm.trans found) (by simp)
      exact ih (count + 1) (by omega) (by omega)

/-- The shortest digits lie in the interval. -/
theorem Canonical.roundsTo_shortest (canonical : Canonical m e) :
    RoundsTo m e (shortest m e).value := by
  obtain ⟨positive, scaledTo⟩ := scaled_div m Nat.one_pos (-e)
  have value : ((scaled m 1 (-e)).1 / (scaled m 1 (-e)).2 : ℚ) = m * 2 ^ e := by
    rw [scaledTo, zpow_neg]
    simp
  have inhabited : 0 < (scaled m 1 (-e)).1 := by
    have cast : (0 : ℚ) < m := by exact_mod_cast canonical.positive
    have := mul_pos cast (two_zpow_pos e)
    rw [← value] at this
    by_contra none
    simp [show (scaled m 1 (-e)).1 = 0 by omega] at this
  have places := decimalPlaces_le inhabited positive
  rw [value] at places
  obtain ⟨j, rounds⟩ := canonical.exists_on_grid
    (k := decimalPlaces (scaled m 1 (-e)).1 (scaled m 1 (-e)).2 - 17) (by convert places using 2; ring)
  have there := exists_nearestOnGrid? canonical.positive rounds
  obtain ⟨k, found⟩ := shortestFrom_spec _ 17 1 17 (by decide) (by decide) there
  exact roundsTo_of_nearestOnGrid? canonical.positive found

end JobMatrix.Binary64
