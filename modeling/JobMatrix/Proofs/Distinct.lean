import Mathlib.Data.Finset.Prod
import Mathlib.Algebra.Order.GroupWithZero.Basic
import JobMatrix.Proofs.Expansion

set_option autoImplicit false

/-!
Different assignments of a job. An assignment chooses a value for each axis, so that there are as
many different ones as there are choices among the different values of the axes; only where no
axis has a value twice are they as many as the instances.
-/

namespace JobMatrix

section Lists

variable {α β γ : Type} [DecidableEq β] [DecidableEq γ]

/-- Two functions that tell the same elements apart have as many values. -/
theorem card_map_eq_of_iff {f : α → β} {g : α → γ} {xs : List α}
    (agree : ∀ x ∈ xs, ∀ y ∈ xs, f x = f y ↔ g x = g y) :
    (xs.map f).toFinset.card = (xs.map g).toFinset.card := by
  induction xs with
  | nil => rfl
  | cons x xs ih =>
    have later := ih fun y hy z hz => agree y (List.mem_cons_of_mem x hy) z (List.mem_cons_of_mem x hz)
    have again : f x ∈ (xs.map f).toFinset ↔ g x ∈ (xs.map g).toFinset := by
      simp only [List.mem_toFinset, List.mem_map]
      refine exists_congr fun y => and_congr_right fun hy => ?_
      exact agree y (List.mem_cons_of_mem x hy) x List.mem_cons_self
    simp only [List.map_cons, List.toFinset_cons, Finset.card_insert_eq_ite, again, later]

theorem card_eq_length_iff {xs : List β} : xs.toFinset.card = xs.length ↔ xs.Nodup :=
  Multiset.toFinset_card_eq_card_iff_nodup

/-- Two products are the same only if their factors are, where one has the smaller factors. -/
theorem prod_eq_prod_iff {f g : α → Nat} {xs : List α} (smaller : ∀ x ∈ xs, f x ≤ g x)
    (positive : ∀ x ∈ xs, 0 < f x) :
    (xs.map f).prod = (xs.map g).prod ↔ ∀ x ∈ xs, f x = g x := by
  induction xs with
  | nil => simp
  | cons x xs ih =>
    obtain ⟨less, smaller⟩ := List.forall_mem_cons.mp smaller
    obtain ⟨here, positive⟩ := List.forall_mem_cons.mp positive
    have rest : 0 < (xs.map g).prod := by
      refine List.prod_pos_iff_forall_pos_nat.mpr fun n member => ?_
      obtain ⟨y, hy, rfl⟩ := List.mem_map.mp member
      exact (positive y hy).trans_le (smaller y hy)
    rw [List.map_cons, List.map_cons, List.prod_cons, List.prod_cons,
      mul_eq_mul_iff_eq_and_eq_of_pos less (List.prod_le_prod' smaller) here rest,
      ih smaller positive, List.forall_mem_cons]

end Lists

namespace Job

theorem toFinset_combinations (a : Axis) (axes : List Axis) :
    (combinations (a :: axes)).toFinset =
      (a.values.toFinset ×ˢ (combinations axes).toFinset).image fun p => (a.name, p.1) :: p.2 := by
  ext cells
  simp only [combinations, List.mem_toFinset, List.mem_flatMap, List.mem_map, Finset.mem_image,
    Finset.mem_product, Prod.exists]
  constructor
  · rintro ⟨v, hv, tail, ht, rfl⟩
    exact ⟨v, tail, ⟨hv, ht⟩, rfl⟩
  · rintro ⟨v, tail, ⟨hv, ht⟩, rfl⟩
    exact ⟨v, hv, tail, ht, rfl⟩

/-- There are as many assignments as choices among the different values. -/
theorem card_combinations (axes : List Axis) :
    (combinations axes).toFinset.card = (axes.map fun a => a.values.toFinset.card).prod := by
  induction axes with
  | nil => rfl
  | cons a axes ih =>
    have apart : Function.Injective fun p : Text × List (Text × Text) => (a.name, p.1) :: p.2 := by
      rintro ⟨v, tail⟩ ⟨v', tail'⟩ same
      simpa using same
    rw [toFinset_combinations, Finset.card_image_of_injective _ apart, Finset.card_product, ih,
      List.map_cons, List.prod_cons]

theorem nodup_combinations_iff {axes : List Axis} (inhabited : ∀ a ∈ axes, a.values ≠ []) :
    (combinations axes).Nodup ↔ ∀ a ∈ axes, a.values.Nodup := by
  rw [← card_eq_length_iff, card_combinations, length_combinations, prod_eq_prod_iff]
  · exact forall₂_congr fun a _ => card_eq_length_iff
  · intro a _
    exact a.values.toFinset_card_le
  · intro a ha
    exact Finset.card_pos.mpr ((List.toFinset_nonempty_iff _).mpr (inhabited a ha))

end Job

end JobMatrix
