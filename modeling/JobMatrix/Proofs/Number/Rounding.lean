import JobMatrix.Number.Decimal
import Mathlib.Algebra.Order.Field.Power
import Mathlib.Data.Rat.Cast.Order
import Mathlib.Tactic.FieldSimp
import Mathlib.Tactic.Linarith
import Mathlib.Tactic.NormNum
import Mathlib.Tactic.Positivity
import Mathlib.Tactic.Ring

set_option autoImplicit false

/-!
Rounding, seen as arithmetic of rational numbers. A quotient that lies in the rounding interval of a
double is rounded to this double: the first guess at the exponent is set right, and the quotient is
nearer to the significand than to any other integer, or as near and the significand is even. Below a
power of two the exponent comes out one too small, and the carry sets it right.
-/

namespace JobMatrix.Binary64

/-- A significand and an exponent as rounding makes them for a positive number. -/
structure Canonical (m : Nat) (e : Int) : Prop where
  positive : 0 < m
  bounded : m < 2 ^ 53
  least : leastExponent ≤ e
  finite : e < overflowExponent
  normal : leastExponent < e → 2 ^ 52 ≤ m

/-- The least number that can round to `m · 2 ^ e`. Below a power of two the numbers are denser. -/
def lowest (m : Nat) (e : Int) : ℚ :=
  (if m = 2 ^ 52 ∧ leastExponent < e then (m : ℚ) - 1 / 4 else m - 1 / 2) * 2 ^ e

def highest (m : Nat) (e : Int) : ℚ := (m + 1 / 2) * 2 ^ e

/-- The number rounds to `m · 2 ^ e`; the ends of the interval do when the significand is even. -/
def RoundsTo (m : Nat) (e : Int) (x : ℚ) : Prop :=
  if m % 2 = 0 then lowest m e ≤ x ∧ x ≤ highest m e else lowest m e < x ∧ x < highest m e

/-! ### Quotients -/

theorem divNearest_eq_of_bounds {num den k : Nat} (positive : 0 < den)
    (low : 2 * (k * den) ≤ 2 * num + den) (high : 2 * num ≤ 2 * (k * den) + den)
    (tie : k % 2 = 0 ∨ 2 * (k * den) < 2 * num + den ∧ 2 * num < 2 * (k * den) + den) :
    divNearest num den = k := by
  have split : den * (num / den) + num % den = num := Nat.div_add_mod num den
  have small : num % den < den := Nat.mod_lt num positive
  have below : num / den ≤ k := by
    by_contra above
    have : den * (k + 1) ≤ den * (num / den) := Nat.mul_le_mul_left den (by omega)
    rw [Nat.mul_add, Nat.mul_comm den k] at this
    omega
  have above : k ≤ num / den + 1 := by
    by_contra below
    have : den * (num / den + 2) ≤ den * k := Nat.mul_le_mul_left den (by omega)
    rw [Nat.mul_add, Nat.mul_comm den k] at this
    omega
  unfold divNearest
  dsimp only
  obtain rfl | rfl : k = num / den ∨ k = num / den + 1 := by omega
  · rw [Nat.mul_comm (num / den)] at low high tie
    split
    next => rfl
    next => rw [if_neg (by omega)]; omega
  · rw [Nat.add_mul, Nat.one_mul, Nat.mul_comm (num / den)] at low high tie
    rw [if_neg (by omega)]
    split
    next => rfl
    next => omega

/-- The nearest integer to a quotient, and the even one of two that are equally near. -/
theorem divNearest_eq {num den k : Nat} (positive : 0 < den) (low : (k : ℚ) - 1 / 2 ≤ num / den)
    (high : (num / den : ℚ) ≤ k + 1 / 2)
    (tie : k % 2 = 0 ∨ (k : ℚ) - 1 / 2 < num / den ∧ (num / den : ℚ) < k + 1 / 2) :
    divNearest num den = k := by
  have cast : (0 : ℚ) < den := by exact_mod_cast positive
  rw [le_div_iff₀ cast] at low
  rw [div_le_iff₀ cast] at high
  rw [lt_div_iff₀ cast, div_lt_iff₀ cast] at tie
  have low : 2 * (k * den) ≤ 2 * num + den := by
    have : 2 * ((k : ℚ) * den) ≤ 2 * num + den := by linarith
    exact_mod_cast this
  have high : 2 * num ≤ 2 * (k * den) + den := by
    have : 2 * (num : ℚ) ≤ 2 * (k * den) + den := by linarith
    exact_mod_cast this
  have tie : k % 2 = 0 ∨ 2 * (k * den) < 2 * num + den ∧ 2 * num < 2 * (k * den) + den := by
    refine tie.imp id fun strict => ⟨?_, ?_⟩
    · have : 2 * ((k : ℚ) * den) < 2 * num + den := by linarith
      exact_mod_cast this
    · have : 2 * (num : ℚ) < 2 * (k * den) + den := by linarith
      exact_mod_cast this
  exact divNearest_eq_of_bounds positive low high tie

/-- A quotient of natural numbers is scaled without loss. -/
theorem scaled_div (num : Nat) {den : Nat} (positive : 0 < den) (e : Int) :
    0 < (scaled num den e).2 ∧
      ((scaled num den e).1 / (scaled num den e).2 : ℚ) = num / den / 2 ^ e := by
  unfold scaled
  have two (n : Nat) : Nat.pow 2 n = 2 ^ n := rfl
  split
  next up =>
    obtain ⟨n, rfl⟩ := Int.eq_ofNat_of_zero_le up
    refine ⟨Nat.mul_pos positive (Nat.two_pow_pos n), ?_⟩
    simp only [two, Int.toNat_natCast, Nat.cast_mul, Nat.cast_pow, Nat.cast_ofNat, zpow_natCast]
    rw [div_div]
  next down =>
    obtain ⟨n, spelled⟩ := Int.eq_ofNat_of_zero_le (show 0 ≤ -e by omega)
    obtain rfl : e = -n := by omega
    refine ⟨positive, ?_⟩
    simp only [two, neg_neg, Int.toNat_natCast, Nat.cast_mul, Nat.cast_pow, Nat.cast_ofNat, zpow_neg,
      zpow_natCast, div_inv_eq_mul]
    ring

theorem two_zpow_pos (e : Int) : (0 : ℚ) < 2 ^ e := zpow_pos (by norm_num) e

theorem two_zpow_le {d e : Int} (le : d ≤ e) : (2 : ℚ) ^ d ≤ 2 ^ e :=
  zpow_le_zpow_right₀ (by norm_num) le

theorem two_zpow_lt_iff {d e : Int} : (2 : ℚ) ^ d < 2 ^ e ↔ d < e :=
  zpow_lt_zpow_iff_right₀ (by norm_num)

/-- The exponent at which a quotient has a significand of its size. -/
def exactExponent (num den : Nat) : Int :=
  let guess : Int := (num.log2 : Int) - (den.log2 : Int) - 53
  if Nat.pow 2 53 ≤ (scaled num den guess).1 / (scaled num den guess).2 then guess + 1 else guess

theorem log2_bounds {n : Nat} (positive : 0 < n) :
    (2 : ℚ) ^ (n.log2 : Int) ≤ n ∧ (n : ℚ) < 2 ^ ((n.log2 : Int) + 1) := by
  have low : 2 ^ n.log2 ≤ n := Nat.log2_self_le (by omega)
  have high : n < 2 ^ (n.log2 + 1) := Nat.lt_log2_self
  constructor
  · rw [zpow_natCast]
    exact_mod_cast low
  · rw [← Nat.cast_succ, zpow_natCast]
    exact_mod_cast high

theorem exactExponent_bounds {num den : Nat} (hn : 0 < num) (hd : 0 < den) :
    (2 : ℚ) ^ (exactExponent num den + 52) ≤ num / den ∧
      (num / den : ℚ) < 2 ^ (exactExponent num den + 53) := by
  have cast : (0 : ℚ) < den := by exact_mod_cast hd
  obtain ⟨numLow, numHigh⟩ := log2_bounds hn
  obtain ⟨denLow, denHigh⟩ := log2_bounds hd
  unfold exactExponent
  generalize guessed : (num.log2 : Int) - (den.log2 : Int) - 53 = guess
  have low : (2 : ℚ) ^ (guess + 52) ≤ num / den := by
    rw [le_div_iff₀ cast]
    calc (2 : ℚ) ^ (guess + 52) * den ≤ 2 ^ (guess + 52) * 2 ^ ((den.log2 : Int) + 1) := by
          gcongr
      _ = 2 ^ (num.log2 : Int) := by
          rw [← zpow_add₀ (by norm_num)]
          congr 1
          omega
      _ ≤ num := numLow
  have high : (num / den : ℚ) < 2 ^ (guess + 54) := by
    rw [div_lt_iff₀ cast]
    calc (num : ℚ) < 2 ^ ((num.log2 : Int) + 1) := numHigh
      _ = 2 ^ (guess + 54) * 2 ^ (den.log2 : Int) := by
          rw [← zpow_add₀ (by norm_num)]
          congr 1
          omega
      _ ≤ 2 ^ (guess + 54) * den := by gcongr
  obtain ⟨positive, scaledTo⟩ := scaled_div num hd guess
  have large : Nat.pow 2 53 ≤ (scaled num den guess).1 / (scaled num den guess).2 ↔
      (2 : ℚ) ^ (guess + 53) ≤ num / den := by
    have cast' : (0 : ℚ) < (scaled num den guess).2 := by exact_mod_cast positive
    rw [Nat.le_div_iff_mul_le positive, add_comm, zpow_add₀ (by norm_num),
      ← le_div_iff₀ (two_zpow_pos guess), ← scaledTo, le_div_iff₀ cast']
    norm_cast
  dsimp only
  split
  next isLarge =>
    refine ⟨?_, ?_⟩
    · rw [show guess + 1 + 52 = guess + 53 by ring]
      exact large.mp isLarge
    · rw [show guess + 1 + 53 = guess + 54 by ring]
      exact high
  next isSmall => exact ⟨low, not_le.mp fun above => isSmall (large.mpr above)⟩

/-- What is rounded, once the exponent is known. -/
theorem ofRatio_of_positive {negative : Bool} {num den : Nat} (hn : 0 < num) (hd : 0 < den) :
    ofRatio negative num den =
      let e := max (exactExponent num den) leastExponent
      let m := divNearest (scaled num den e).1 (scaled num den e).2
      let (m, e) := if m = Nat.pow 2 53 then (Nat.pow 2 52, e + 1) else (m, e)
      if overflowExponent ≤ e then .infinite negative else .finite negative m e := by
  have inhabited : (num = 0 || den = 0) = false := by
    simp
    omega
  rw [ofRatio, inhabited]
  rfl

/-! ### Numbers of the interval -/

variable {m : Nat} {e : Int} {x : ℚ}

theorem RoundsTo.le (rounds : RoundsTo m e x) : lowest m e ≤ x ∧ x ≤ highest m e := by
  unfold RoundsTo at rounds
  split at rounds
  next => exact rounds
  next => exact ⟨rounds.1.le, rounds.2.le⟩

theorem le_lowest (m : Nat) (e : Int) : ((m : ℚ) - 1 / 2) * 2 ^ e ≤ lowest m e := by
  unfold lowest
  have := two_zpow_pos e
  split
  next => nlinarith
  next => exact le_rfl

theorem Canonical.lowest_pos (canonical : Canonical m e) : 0 < lowest m e := by
  have positive : (1 : ℚ) ≤ m := by exact_mod_cast canonical.positive
  have := two_zpow_pos e
  have := le_lowest m e
  nlinarith

theorem Canonical.highest_lt (canonical : Canonical m e) : highest m e < 2 ^ (e + 53) := by
  have bounded : (m : ℚ) + 1 ≤ 2 ^ 53 := by exact_mod_cast canonical.bounded
  have := two_zpow_pos e
  rw [highest, add_comm e, zpow_add₀ (by norm_num)]
  norm_num at bounded ⊢
  nlinarith

/-- Seen in units of `2 ^ e`, the number is nearer to the significand than to any other integer. -/
theorem RoundsTo.nearest {num den : Nat} (positive : 0 < den) (rounds : RoundsTo m e (num / den)) :
    divNearest (scaled num den e).1 (scaled num den e).2 = m := by
  obtain ⟨inhabited, scaledTo⟩ := scaled_div num positive e
  have unit := two_zpow_pos e
  have low := le_lowest m e
  obtain ⟨above, below⟩ := rounds.le
  apply divNearest_eq inhabited
  · rw [scaledTo, le_div_iff₀ unit]
    exact low.trans above
  · rw [scaledTo, div_le_iff₀ unit]
    exact below
  · by_cases even : m % 2 = 0
    · exact .inl even
    · unfold RoundsTo at rounds
      rw [if_neg even] at rounds
      rw [scaledTo, lt_div_iff₀ unit, div_lt_iff₀ unit]
      exact .inr ⟨low.trans_lt rounds.1, rounds.2⟩

/-- Where the exponent comes out too small, the number is just below a power of two. -/
theorem RoundsTo.below_power {num den : Nat} (hn : 0 < num) (hd : 0 < den) (canonical : Canonical m e)
    (rounds : RoundsTo m e (num / den)) (less : exactExponent num den < e)
    (normal : leastExponent < e) : m = 2 ^ 52 ∧ exactExponent num den = e - 1 := by
  obtain ⟨-, high⟩ := exactExponent_bounds hn hd
  have unit := two_zpow_pos e
  have above := rounds.le.1
  have ceiling : (num / den : ℚ) < 2 ^ 52 * 2 ^ e := by
    calc (num / den : ℚ) < 2 ^ (exactExponent num den + 53) := high
      _ ≤ 2 ^ (52 + e) := two_zpow_le (by omega)
      _ = 2 ^ 52 * 2 ^ e := by
          rw [zpow_add₀ (by norm_num)]
          norm_cast
  have isPower : m = 2 ^ 52 := by
    by_contra other
    have larger : (2 ^ 52 + 1 : ℚ) ≤ m := by
      have := canonical.normal normal
      exact_mod_cast (show 2 ^ 52 + 1 ≤ m by omega)
    have := le_lowest m e
    nlinarith
  refine ⟨isPower, ?_⟩
  have floor : (2 : ℚ) ^ (e + 51) < 2 ^ (exactExponent num den + 53) := by
    calc (2 : ℚ) ^ (e + 51) = 2 ^ 51 * 2 ^ e := by
          rw [add_comm, zpow_add₀ (by norm_num)]
          norm_cast
      _ < lowest m e := by
          have := le_lowest m e
          rw [isPower] at this ⊢
          norm_num at this ⊢
          nlinarith
      _ ≤ num / den := above
      _ < 2 ^ (exactExponent num den + 53) := high
  have := two_zpow_lt_iff.mp floor
  omega

/-- Just below a power of two, rounding on the denser grid carries into the power. -/
theorem RoundsTo.carries {num den : Nat} (hn : 0 < num) (hd : 0 < den)
    (rounds : RoundsTo (2 ^ 52) e (num / den)) (exact : exactExponent num den = e - 1)
    (normal : leastExponent < e) :
    divNearest (scaled num den (e - 1)).1 (scaled num den (e - 1)).2 = Nat.pow 2 53 := by
  obtain ⟨inhabited, scaledTo⟩ := scaled_div num hd (e - 1)
  have unit := two_zpow_pos (e - 1)
  have twice : (2 : ℚ) ^ e = 2 * 2 ^ (e - 1) := by
    rw [zpow_sub_one₀ (by norm_num)]
    ring
  have above := rounds.le.1
  have below := (exactExponent_bounds hn hd).2
  rw [exact, show e - 1 + 53 = 53 + (e - 1) by ring, zpow_add₀ (by norm_num)] at below
  rw [lowest, if_pos ⟨rfl, normal⟩, twice] at above
  norm_num at above below
  apply divNearest_eq inhabited
  · rw [scaledTo, le_div_iff₀ unit]
    norm_num
    linarith
  · rw [scaledTo, div_le_iff₀ unit]
    norm_num
    linarith
  · exact .inl rfl

/-- A quotient that lies in the interval of a double is rounded to it. -/
theorem RoundsTo.ofRatio_eq {num den : Nat} (hd : 0 < den) (canonical : Canonical m e)
    (rounds : RoundsTo m e (num / den)) (negative : Bool) :
    ofRatio negative num den = .finite negative m e := by
  have hn : 0 < num := by
    have := canonical.lowest_pos.trans_le rounds.le.1
    by_contra none
    obtain rfl : num = 0 := by omega
    simp at this
  have noOverflow := canonical.finite
  rw [ofRatio_of_positive hn hd]
  dsimp only
  have atMost : exactExponent num den ≤ e := by
    have low := (exactExponent_bounds hn hd).1
    have below := rounds.le.2.trans_lt canonical.highest_lt
    have := two_zpow_lt_iff.mp (low.trans_lt below)
    omega
  by_cases same : max (exactExponent num den) leastExponent = e
  · have bounded := canonical.bounded
    rw [same, rounds.nearest hd, if_neg (show m ≠ Nat.pow 2 53 by simp; omega)]
    dsimp only
    rw [if_neg (by omega)]
  · have least := canonical.least
    have normal : leastExponent < e := by omega
    obtain ⟨rfl, exact⟩ := rounds.below_power hn hd canonical (by omega) normal
    have carried := rounds.carries hn hd exact normal
    rw [show max (exactExponent num den) leastExponent = e - 1 by omega, carried, if_pos rfl]
    dsimp only
    rw [if_neg (by omega)]
    simp

end JobMatrix.Binary64
