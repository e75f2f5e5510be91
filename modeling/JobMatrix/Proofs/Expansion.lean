import Mathlib.Algebra.Order.BigOperators.Group.List
import Mathlib.Algebra.Order.Ring.Nat
import JobMatrix.Instance
import JobMatrix.Proofs.Construction

set_option autoImplicit false

/-!
The instances of a job as the numbers of a counter. Each axis is a place of the counter, with as
many digits as the axis has values; the first axis is the highest place. The digits of a number are
the positions of the values that its instance has, so that equal values of an axis stay apart.
-/

namespace JobMatrix

/-- The digits of a number, the highest first, in places that each have a size of their own. -/
def positions : List Nat → Nat → List Nat
  | [], _ => []
  | c :: sizes, k => k / sizes.prod % c :: positions sizes k

def Job.sizes (j : Job) : List Nat := j.axes.map fun a => a.values.length

/-! ### Digits -/

@[simp] theorem length_positions (sizes : List Nat) (k : Nat) :
    (positions sizes k).length = sizes.length := by
  induction sizes with
  | nil => rfl
  | cons c sizes ih => simp [positions, ih]

theorem getElem?_positions (sizes : List Nat) (k n : Nat) :
    (positions sizes k)[n]? = sizes[n]?.map (k / (sizes.drop (n + 1)).prod % ·) := by
  induction sizes generalizing n with
  | nil => rfl
  | cons c sizes ih =>
    cases n with
    | zero => rfl
    | succ n => simpa [positions] using ih n

/-- What is above the highest place does not show in the digits. -/
theorem positions_mod {sizes : List Nat} {m : Nat} (divides : sizes.prod ∣ m) (k : Nat) :
    positions sizes (k % m) = positions sizes k := by
  induction sizes with
  | nil => rfl
  | cons c sizes ih =>
    rw [List.prod_cons] at divides
    have high : k % m / sizes.prod % c = k / sizes.prod % c := by
      obtain ⟨d, rfl⟩ := divides
      rw [Nat.mul_comm c, Nat.mul_assoc, Nat.mod_mul_right_div_self,
        Nat.mod_mul_right_mod]
    have low : sizes.prod ∣ m := Nat.dvd_trans (Nat.dvd_mul_left _ c) divides
    rw [positions, positions, high, ih low]

theorem positions_mod_prod (sizes : List Nat) (k : Nat) :
    positions sizes (k % sizes.prod) = positions sizes k :=
  positions_mod (Nat.dvd_refl _) k

theorem positions_lt {sizes : List Nat} {k l : Nat} (less : k < l) (bound : l < sizes.prod) :
    positions sizes k < positions sizes l := by
  induction sizes generalizing k l with
  | nil =>
    rw [List.prod_nil] at bound
    omega
  | cons c sizes ih =>
    rw [List.prod_cons, Nat.mul_comm] at bound
    have highest : l / sizes.prod < c := Nat.div_lt_of_lt_mul bound
    have ordered : k / sizes.prod ≤ l / sizes.prod := Nat.div_le_div_right (Nat.le_of_lt less)
    rw [positions, positions, Nat.mod_eq_of_lt highest,
      Nat.mod_eq_of_lt (Nat.lt_of_le_of_lt ordered highest), List.cons_lt_cons_iff]
    -- The highest digits decide, unless they are the same.
    rcases Nat.lt_or_eq_of_le ordered with higher | same
    · exact .inl higher
    · refine .inr ⟨same, ?_⟩
      have positive : 0 < sizes.prod := Nat.pos_of_mul_pos_right (Nat.zero_lt_of_lt bound)
      have rests : k % sizes.prod < l % sizes.prod := by
        have hk := Nat.div_add_mod k sizes.prod
        have hl := Nat.div_add_mod l sizes.prod
        rw [same] at hk
        omega
      rw [← positions_mod_prod sizes k, ← positions_mod_prod sizes l]
      exact ih rests (Nat.mod_lt l positive)

theorem positions_injective {sizes : List Nat} {k l : Nat} (hk : k < sizes.prod)
    (hl : l < sizes.prod) (same : positions sizes k = positions sizes l) : k = l := by
  rcases Nat.lt_trichotomy k l with less | equal | less
  · exact absurd (same ▸ positions_lt less hl) (List.lt_irrefl _)
  · exact equal
  · exact absurd (same ▸ positions_lt less hk) (List.lt_irrefl _)

theorem exists_positions {ps sizes : List Nat} (digits : List.Forall₂ (· < ·) ps sizes) :
    ∃ k < sizes.prod, positions sizes k = ps := by
  induction digits with
  | nil => exact ⟨0, by simp, rfl⟩
  | @cons p c ps sizes digit _ ih =>
    obtain ⟨r, bound, rfl⟩ := ih
    have positive := Nat.zero_lt_of_lt bound
    have high : (sizes.prod * p + r) / sizes.prod = p := by
      rw [Nat.mul_add_div positive, Nat.div_eq_of_lt bound, Nat.add_zero]
    have low : (sizes.prod * p + r) % sizes.prod = r := by
      rw [Nat.mul_add_mod, Nat.mod_eq_of_lt bound]
    refine ⟨sizes.prod * p + r, ?_, ?_⟩
    · calc sizes.prod * p + r < sizes.prod * (p + 1) := by rw [Nat.mul_succ]; omega
        _ ≤ sizes.prod * c := Nat.mul_le_mul_left _ digit
        _ = (c :: sizes).prod := by rw [List.prod_cons, Nat.mul_comm]
    · rw [positions, high, Nat.mod_eq_of_lt digit, ← positions_mod_prod, low]

/-! ### Combinations -/

/-- The elements of parts of one length, by the number of the part and the place in it. -/
theorem getElem?_flatMap {α β : Type} {f : α → List β} {m : Nat} {xs : List α}
    (uniform : ∀ x ∈ xs, (f x).length = m) (positive : 0 < m) (k : Nat) :
    (xs.flatMap f)[k]? = xs[k / m]?.bind fun x => (f x)[k % m]? := by
  induction xs generalizing k with
  | nil => simp
  | cons x xs ih =>
    obtain ⟨first, others⟩ := List.forall_mem_cons.mp uniform
    rw [List.flatMap_cons, List.getElem?_append, first]
    split
    next inside => simp [Nat.div_eq_of_lt inside, Nat.mod_eq_of_lt inside]
    next outside =>
      obtain ⟨l, rfl⟩ := Nat.exists_eq_add_of_le' (Nat.le_of_not_lt outside)
      rw [Nat.add_sub_cancel, ih others, Nat.add_div_right l positive, Nat.add_mod_right]
      simp

namespace Job

@[simp] theorem length_combinations (axes : List Axis) :
    (combinations axes).length = (axes.map fun a => a.values.length).prod := by
  induction axes with
  | nil => rfl
  | cons a axes ih => simp [combinations, List.length_flatMap, ih]

/-- The cell of an axis with the value at a position. -/
def cellAt? (a : Axis) (p : Nat) : Option (Text × Text) := a.values[p]?.map (a.name, ·)

/-- The combinations run through the digits of their numbers. -/
theorem exists_getElem?_combinations {axes : List Axis} {k : Nat}
    (bound : k < (axes.map fun a => a.values.length).prod) :
    ∃ cells, (combinations axes)[k]? = some cells ∧
      cells.map some =
        List.zipWith cellAt? axes (positions (axes.map fun a => a.values.length) k) := by
  induction axes generalizing k with
  | nil =>
    obtain rfl : k = 0 := by simpa using bound
    exact ⟨[], rfl, rfl⟩
  | cons a axes ih =>
    rw [List.map_cons, List.prod_cons, Nat.mul_comm] at bound
    have digit := Nat.div_lt_of_lt_mul bound
    have positive := Nat.pos_of_mul_pos_right (Nat.zero_lt_of_lt bound)
    obtain ⟨tail, found, spelled⟩ := ih (Nat.mod_lt k positive)
    rw [positions_mod_prod] at spelled
    refine ⟨(a.name, a.values[k / _]) :: tail, ?_, ?_⟩
    · rw [combinations, getElem?_flatMap (by simp) positive, List.getElem?_eq_getElem digit]
      simp [found]
    · simp [positions, Nat.mod_eq_of_lt digit, cellAt?, spelled, digit]

theorem instanceCount_eq (j : Job) : j.instanceCount = j.sizes.prod := by
  unfold instanceCount sizes axes
  cases j.matrix with
  | none => rfl
  | some axes => exact List.prod_eq_foldl_nat.symm

theorem length_instances (j : Job) : j.instances.length = j.sizes.prod := by
  simp [instances, sizes, axes]

theorem assignments_instances (j : Job) :
    j.instances.map Instance.assignment = combinations j.axes := by
  apply List.ext_getElem?
  intro k
  simp only [instances, axes, List.getElem?_map, List.getElem?_mapIdx, Option.map_map]
  cases (combinations (j.matrix.getD []))[k]? <;> rfl

theorem platform_of_mem_instances {j : Job} {i : Instance} (member : i ∈ j.instances) :
    i.platform = j.platform := by
  obtain ⟨k, bound, rfl⟩ := List.mem_mapIdx.mp member
  rfl

theorem WellFormed.sizes_positive {j : Job} (sound : j.WellFormed) : 1 ≤ j.sizes.prod := by
  refine List.prod_pos_iff_forall_pos_nat.mpr fun c member => ?_
  obtain ⟨a, ha, rfl⟩ := List.mem_map.mp member
  exact List.length_pos_iff.mpr (sound.axes.inhabited a ha)

/-- A combination has a cell for each axis, in the order of the axes. -/
theorem keys_of_mem_combinations {axes : List Axis} {cells : Entries Text}
    (member : cells ∈ combinations axes) : cells.keys = axes.map Axis.name := by
  induction axes generalizing cells with
  | nil =>
    obtain rfl := List.mem_singleton.mp member
    rfl
  | cons a axes ih =>
    obtain ⟨v, -, tails⟩ := List.mem_flatMap.mp member
    obtain ⟨tail, inTails, rfl⟩ := List.mem_map.mp tails
    rw [Entries.keys, List.map_cons, List.map_cons]
    exact congrArg (a.name :: ·) (ih inTails)

theorem exists_cell {axes : List Axis} {k n : Nat} {cells : List (Text × Text)}
    (spelled : cells.map some =
      List.zipWith cellAt? axes (positions (axes.map fun a => a.values.length) k))
    (h : n < axes.length) :
    ∃ v, axes[n].values[k / ((axes.map fun a => a.values.length).drop (n + 1)).prod %
        axes[n].values.length]? = some v ∧ cells[n]? = some (axes[n].name, v) := by
  have cell := congrArg (·[n]?) spelled
  simp only [List.getElem?_map, List.getElem?_zipWith, getElem?_positions,
    List.getElem?_eq_getElem h, Option.map_some] at cell
  obtain ⟨c, found, same⟩ := Option.map_eq_some_iff.mp cell
  obtain ⟨v, value, rfl⟩ := Option.map_eq_some_iff.mp same.symm
  exact ⟨v, value, found⟩

/-- Instances count through the positions of the values, and the last axis counts fastest. -/
theorem instances_mixed_radix (j : Job) (made : j.Constructed) :
    j.instances.length = j.sizes.prod ∧ j.instanceCount = j.sizes.prod ∧ 1 ≤ j.sizes.prod ∧
    (∀ k < j.sizes.prod, ∃ i, j.instances[k]? = some i ∧ i.index = k ∧ i.job = j.name ∧
      i.platform = j.platform ∧ i.assignment.length = j.axes.length ∧
      ∀ (n : Nat) (h : n < j.axes.length), ∃ v,
        j.axes[n].values[k / (j.sizes.drop (n + 1)).prod % j.axes[n].values.length]? = some v ∧
        i.assignment[n]? = some (j.axes[n].name, v)) ∧
    (∀ ps, List.Forall₂ (· < ·) ps j.sizes → ∃! k, k < j.sizes.prod ∧ positions j.sizes k = ps) ∧
    ∀ k l, k < l → l < j.sizes.prod → positions j.sizes k < positions j.sizes l := by
  refine ⟨j.length_instances, j.instanceCount_eq, made.wellFormed.sizes_positive, ?_, ?_, ?_⟩
  · intro k bound
    obtain ⟨cells, found, spelled⟩ := exists_getElem?_combinations bound
    have size : cells.length = j.axes.length := by
      simpa using congrArg List.length spelled
    refine ⟨{ job := j.name, platform := j.platform, assignment := cells, index := k }, ?_, rfl,
      rfl, rfl, size, fun n h => exists_cell spelled h⟩
    simpa [instances, axes, List.getElem?_mapIdx] using found
  · intro ps digits
    obtain ⟨k, bound, spelled⟩ := exists_positions digits
    refine ⟨k, ⟨bound, spelled⟩, ?_⟩
    rintro l ⟨bound', spelled'⟩
    exact positions_injective bound' bound (spelled'.trans spelled.symm)
  · intro k l less bound
    exact positions_lt less bound

/-- A job with two axes, the second of which has one value twice. -/
def twoAxes : Job where
  name := "build"
  platform := .text ("linux" : String)
  steps := [.command (.text ("test" : String)) (.text ("make" : String)) .null .null]
  matrix := some
    [⟨"os", ["a", "b"].map Text.ofString⟩, ⟨"mode", ["x", "x", "y"].map Text.ofString⟩]

theorem twoAxes_constructed : twoAxes.Constructed :=
  ⟨.text twoAxes.name, twoAxes.platform, twoAxes.steps, some (.ofAxes twoAxes.axes), [],
    .bool true, none, rfl⟩

/-- The fifth instance of six has the second value of both axes. -/
theorem twoAxes_mixed_radix :
    twoAxes.Constructed ∧ twoAxes.instances.length = 6 ∧
      ∃ i, twoAxes.instances[4]? = some i ∧ i.index = 4 ∧
        i.assignment = [("os", "b"), ("mode", "x")].map (Prod.map Text.ofString Text.ofString) := by
  refine ⟨twoAxes_constructed, ?_⟩
  obtain ⟨count, -, -, each, -⟩ := instances_mixed_radix twoAxes twoAxes_constructed
  refine ⟨count, ?_⟩
  obtain ⟨i, found, index, -⟩ := each 4 (by decide)
  refine ⟨i, found, index, ?_⟩
  obtain rfl := Option.some.inj found
  rfl

end Job

end JobMatrix
