import Mathlib.Data.List.Forall2
import Mathlib.Data.List.Induction
import Mathlib.Data.List.TakeDrop

set_option autoImplicit false

/-!
Operations that end with a result or a failure, read by their results: what the parts of an
operation gave when the whole of it gave a result; what is known of both endings; and facts about
lists that go with them.
-/

namespace JobMatrix

variable {ε ε' α β : Type}

@[simp] theorem ok_bind (a : α) (f : α → Except ε β) : (Except.ok a : Except ε α) >>= f = f a := rfl

@[simp] theorem error_bind (e : ε) (f : α → Except ε β) :
    (Except.error e : Except ε α) >>= f = .error e := rfl

@[simp] theorem throw_eq_error (e : ε) : (throw e : Except ε α) = .error e := rfl

theorem bind_eq_ok {x : Except ε α} {f : α → Except ε β} {b : β} :
    x >>= f = .ok b ↔ ∃ a, x = .ok a ∧ f a = .ok b := by
  cases x <;> simp [bind, Except.bind]

theorem bind_eq_error {x : Except ε α} {f : α → Except ε β} {e : ε} :
    x >>= f = .error e ↔ x = .error e ∨ ∃ a, x = .ok a ∧ f a = .error e := by
  cases x <;> simp [bind, Except.bind]

theorem exists_of_isOk {x : Except ε α} (h : x.isOk = true) : ∃ a, x = .ok a := by
  cases x with
  | error => simp [Except.isOk, Except.toBool] at h
  | ok a => exact ⟨a, rfl⟩

theorem exists_of_any {x : Except ε α} {p : α → Bool} (h : x.toOption.any p = true) :
    ∃ a, x = .ok a ∧ p a = true := by
  cases x with
  | error => simp [Except.toOption] at h
  | ok a => exact ⟨a, rfl, h⟩

theorem map_eq_ok {x : Except ε α} {f : α → β} {b : β} :
    x.map f = .ok b ↔ ∃ a, x = .ok a ∧ f a = b := by
  cases x <;> simp [Except.map]

theorem map_eq_error {x : Except ε α} {f : α → β} {e : ε} : f <$> x = .error e ↔ x = .error e := by
  cases x <;> simp [Functor.map, Except.map]

theorem mapError_eq_ok {x : Except ε α} {f : ε → ε'} {a : α} :
    x.mapError f = .ok a ↔ x = .ok a := by
  cases x <;> simp [Except.mapError]

@[simp] theorem pure_eq_ok {a b : α} : (pure a : Except ε α) = .ok b ↔ a = b := by
  simp [pure, Except.pure]

@[simp] theorem pure_ne_error (a : α) (e : ε) : (pure a : Except ε α) ≠ .error e := by
  simp [pure, Except.pure]

/-- An operation on all elements gives a result when it does so on each. -/
theorem mapM_eq_ok {f : α → Except ε β} {xs : List α} {ys : List β} :
    xs.mapM f = .ok ys ↔ List.Forall₂ (fun x y => f x = .ok y) xs ys := by
  induction xs generalizing ys with
  | nil =>
    simp only [List.mapM_nil, pure_eq_ok, List.forall₂_nil_left_iff]
    exact eq_comm
  | cons x xs ih =>
    simp only [List.mapM_cons, bind_eq_ok, pure_eq_ok, ih, List.forall₂_cons_left_iff]
    constructor
    · rintro ⟨y, hy, ys, hys, rfl⟩
      exact ⟨y, ys, hy, hys, rfl⟩
    · rintro ⟨y, ys, hy, hys, rfl⟩
      exact ⟨y, hy, ys, hys, rfl⟩

theorem mapM_concat_eq_ok {f : α → Except ε β} {xs : List α} {x : α} {ys : List β} :
    (xs ++ [x]).mapM f = .ok ys ↔
      ∃ front last, xs.mapM f = .ok front ∧ f x = .ok last ∧ ys = front ++ [last] := by
  simp only [List.mapM_append, bind_eq_ok, pure_eq_ok, List.mapM_cons, List.mapM_nil]
  constructor
  · rintro ⟨front, first, _, ⟨last, here, _, rfl, rfl⟩, rfl⟩
    exact ⟨front, last, first, here, rfl⟩
  · rintro ⟨front, last, first, here, rfl⟩
    exact ⟨front, first, [last], ⟨last, here, [], rfl, rfl⟩, rfl⟩

theorem mapM_dropLast {f : α → Except ε β} {xs : List α} {ys : List β} (h : xs.mapM f = .ok ys) :
    xs.dropLast.mapM f = .ok ys.dropLast := by
  cases xs using List.reverseRecOn with
  | nil =>
    obtain rfl := pure_eq_ok.mp h
    rfl
  | append_singleton xs x =>
    obtain ⟨front, last, first, -, rfl⟩ := mapM_concat_eq_ok.mp h
    rw [List.dropLast_concat, List.dropLast_concat, first]

/-- An operation on all elements without results ends well when it does so on each. -/
theorem forM_eq_ok {f : α → Except ε Unit} {xs : List α} :
    xs.forM f = .ok () ↔ ∀ x ∈ xs, f x = .ok () := by
  induction xs with
  | nil => exact iff_of_true rfl (List.forall_mem_nil _)
  | cons x xs ih =>
    rw [List.forall_mem_cons, ← ih]
    exact bind_eq_ok.trans ⟨fun ⟨_, first, later⟩ => ⟨first, later⟩, fun both => ⟨(), both⟩⟩

/-- An operation on all elements fails on one of them. -/
theorem exists_mem_of_mapM_eq_error {f : α → Except ε β} {xs : List α} {e : ε}
    (h : xs.mapM f = .error e) : ∃ x ∈ xs, f x = .error e := by
  induction xs with
  | nil => simp at h
  | cons x xs ih =>
    rw [List.mapM_cons, bind_eq_error] at h
    rcases h with here | ⟨y, -, later⟩
    · exact ⟨x, List.mem_cons_self, here⟩
    · rcases bind_eq_error.mp later with inRest | ⟨ys, -, none⟩
      · obtain ⟨z, member, failed⟩ := ih inRest
        exact ⟨z, List.mem_cons_of_mem x member, failed⟩
      · simp at none

/-- An operation on all elements fails as it does on the first element where it fails. -/
theorem mapM_eq_error_of_first {f : α → Except ε β} {before after : List α} {x : α} {e : ε}
    (fine : ∀ y ∈ before, ∃ z, f y = .ok z) (failed : f x = .error e) :
    (before ++ x :: after).mapM f = .error e := by
  induction before with
  | nil => rw [List.nil_append, List.mapM_cons, failed, error_bind]
  | cons y before ih =>
    obtain ⟨⟨z, first⟩, later⟩ := List.forall_mem_cons.mp fine
    rw [List.cons_append, List.mapM_cons, first, ok_bind, ih later, error_bind]

/-- An operation on all elements that puts each result beside something of its element. -/
theorem mapM_pair_eq_ok {γ : Type} {f : α → Except ε β} {g : α → γ} {xs : List α}
    {ys : List (γ × β)} :
    (xs.mapM fun x => do return (g x, ← f x)) = .ok ys ↔
      List.Forall₂ (fun x y => y.1 = g x ∧ f x = .ok y.2) xs ys := by
  have each (x : α) (y : γ × β) :
      (do return (g x, ← f x) : Except ε (γ × β)) = .ok y ↔ y.1 = g x ∧ f x = .ok y.2 := by
    simp only [bind_eq_ok, pure_eq_ok]
    constructor
    · rintro ⟨b, result, rfl⟩
      exact ⟨rfl, result⟩
    · rintro ⟨beside, result⟩
      exact ⟨y.2, result, Prod.ext beside.symm rfl⟩
  simp only [mapM_eq_ok, each]

theorem mapM_congr {f g : α → Except ε β} {xs : List α} (each : ∀ x ∈ xs, f x = g x) :
    xs.mapM f = xs.mapM g := by
  induction xs with
  | nil => rfl
  | cons x xs ih =>
    rw [List.mapM_cons, List.mapM_cons, each x (by simp), ih fun x hx => each x (by simp [hx])]

theorem exists_mapM_eq_ok {f : α → Except ε β} {xs : List α}
    (each : ∀ x ∈ xs, ∃ y, f x = .ok y) : ∃ ys, xs.mapM f = .ok ys := by
  induction xs with
  | nil => exact ⟨[], rfl⟩
  | cons x xs ih =>
    obtain ⟨y, hy⟩ := each x (by simp)
    obtain ⟨ys, hys⟩ := ih fun x hx => each x (by simp [hx])
    exact ⟨y :: ys, mapM_eq_ok.mpr (.cons hy (mapM_eq_ok.mp hys))⟩

/-- What every round of an operation keeps, the whole of it keeps. -/
theorem foldlM_invariant {P : β → Prop} {f : β → α → Except ε β} {xs : List α} {b c : β}
    (start : P b) (round : ∀ b a b', P b → f b a = .ok b' → P b') (h : xs.foldlM f b = .ok c) :
    P c := by
  induction xs generalizing b with
  | nil =>
    obtain rfl := pure_eq_ok.mp h
    exact start
  | cons x xs ih =>
    obtain ⟨b', first, later⟩ := bind_eq_ok.mp h
    exact ih (round b x b' start first) later

/-- Rounds that leave a state as it is and put one result each in front of those before. -/
theorem foldlM_collect {γ : Type} {f : γ × List β → α → Except ε (γ × List β)} {state : γ}
    (result : α → β) {xs : List α}
    (round : ∀ x ∈ xs, ∀ results, f (state, results) x = .ok (state, result x :: results))
    (results : List β) :
    xs.foldlM f (state, results) = .ok (state, (xs.map result).reverse ++ results) := by
  induction xs generalizing results with
  | nil => rfl
  | cons x xs ih =>
    rw [List.foldlM_cons, round x List.mem_cons_self, ok_bind,
      ih fun y member => round y (List.mem_cons_of_mem x member)]
    simp

theorem mapM_eq_some_of_forall₂ {f : β → Option α} {xs : List α} {ys : List β}
    (h : List.Forall₂ (fun x y => f y = some x) xs ys) : ys.mapM f = some xs := by
  induction h with
  | nil => rfl
  | cons hx _ ih => simp [hx, ih]

theorem exists_mem_left_of_forall₂ {R : α → β → Prop} {xs : List α} {ys : List β}
    (h : List.Forall₂ R xs ys) {y : β} (member : y ∈ ys) : ∃ x ∈ xs, R x y := by
  induction h with
  | nil => simp at member
  | cons hx _ ih =>
    rcases List.mem_cons.mp member with rfl | later
    · exact ⟨_, by simp, hx⟩
    · obtain ⟨x, hxs, hR⟩ := ih later
      exact ⟨x, by simp [hxs], hR⟩

theorem exists_mem_right_of_forall₂ {R : α → β → Prop} {xs : List α} {ys : List β}
    (h : List.Forall₂ R xs ys) {x : α} (member : x ∈ xs) : ∃ y ∈ ys, R x y :=
  exists_mem_left_of_forall₂ h.flip member

theorem exists_mapM_eq_ok_iff {f : α → Except ε β} {xs : List α} :
    (∃ ys, xs.mapM f = .ok ys) ↔ ∀ x ∈ xs, ∃ y, f x = .ok y := by
  constructor
  · rintro ⟨ys, h⟩ x member
    obtain ⟨y, -, here⟩ := exists_mem_right_of_forall₂ (mapM_eq_ok.mp h) member
    exact ⟨y, here⟩
  · exact exists_mapM_eq_ok

theorem map_eq_map_of_forall₂ {γ : Type} {R : α → β → Prop} {f : α → γ} {g : β → γ} {xs : List α}
    {ys : List β} (h : List.Forall₂ R xs ys) (same : ∀ x y, R x y → f x = g y) :
    xs.map f = ys.map g := by
  induction h with
  | nil => rfl
  | cons related _ ih => rw [List.map_cons, List.map_cons, same _ _ related, ih]

/-- What a second operation gives, beside the results of the first. -/
theorem exists_forall₂ {γ : Type} {R : α → β → Prop} {P : α → γ → Prop} {Q : α → β → γ → Prop}
    {xs : List α} {ys : List β} (h : List.Forall₂ R xs ys)
    (each : ∀ x, ∀ y ∈ ys, R x y → ∃ z, P x z ∧ Q x y z) :
    ∃ zs, List.Forall₂ P xs zs ∧ List.Forall₂ (fun y z => ∃ x ∈ xs, Q x y z) ys zs := by
  induction h with
  | nil => exact ⟨[], .nil, .nil⟩
  | @cons x y xs ys hxy _ ih =>
    obtain ⟨z, hp, hq⟩ := each x y List.mem_cons_self hxy
    obtain ⟨zs, hps, hqs⟩ := ih fun x y member => each x y (List.mem_cons_of_mem _ member)
    refine ⟨z :: zs, .cons hp hps, .cons ⟨x, List.mem_cons_self, hq⟩ (hqs.imp ?_)⟩
    rintro y z ⟨x, member, hq⟩
    exact ⟨x, List.mem_cons_of_mem _ member, hq⟩

theorem getElem?_of_forall₂ {R : α → β → Prop} {xs : List α} {ys : List β}
    (h : List.Forall₂ R xs ys) {n : Nat} {x : α} (here : xs[n]? = some x) :
    ∃ y, ys[n]? = some y ∧ R x y := by
  induction h generalizing n with
  | nil => simp at here
  | @cons x' y' _ _ related _ ih =>
    cases n with
    | zero =>
      obtain rfl : x' = x := by simpa using here
      exact ⟨y', rfl, related⟩
    | succ n => exact ih (by simpa using here)

theorem span_append {p : α → Bool} {xs ys : List α} (hx : ∀ x ∈ xs, p x = true)
    (hy : ∀ y ∈ ys.head?, p y = false) : (xs ++ ys).span p = (xs, ys) := by
  rw [List.span_eq_takeWhile_dropWhile, List.takeWhile_append_of_pos hx,
    List.dropWhile_append_of_pos hx]
  cases ys with
  | nil => simp
  | cons y ys => simp [hy y (by simp)]

/-! ### Both endings -/

section

variable {good good' : α → Prop} {bad bad' : ε → Prop} {x : Except ε α}

/-- An operation ends with a result of one kind, or with a failure of another. -/
def Ends (good : α → Prop) (bad : ε → Prop) : Except ε α → Prop
  | .ok a => good a
  | .error e => bad e

@[simp] theorem ends_pure {a : α} : Ends good bad (pure a : Except ε α) ↔ good a := .rfl

theorem Ends.bind {f : α → Except ε β} {next : β → Prop} (first : Ends good bad x)
    (later : ∀ a, good a → Ends next bad (f a)) : Ends next bad (x >>= f) := by
  cases x with
  | ok a => exact later a first
  | error e => exact first

theorem Ends.map {f : α → β} {good : β → Prop} (h : Ends (fun a => good (f a)) bad x) :
    Ends good bad (x.map f) := by
  cases x with
  | ok a => exact h
  | error e => exact h

theorem Ends.mono (h : Ends good bad x) (results : ∀ a, good a → good' a)
    (failures : ∀ e, bad e → bad' e) : Ends good' bad' x := by
  cases x with
  | ok a => exact results a h
  | error e => exact failures e h

theorem Ends.ite {p : Prop} [Decidable p] {x y : Except ε α} (yes : p → Ends good bad x)
    (no : ¬ p → Ends good bad y) : Ends good bad (if p then x else y) := by
  split
  next h => exact yes h
  next h => exact no h

/-- The rounds of an operation, each after those for the elements before. -/
theorem Ends.foldlM_prefix {f : β → α → Except ε β} {good : List α → β → Prop} {b : β} {xs : List α}
    (start : good [] b)
    (round : ∀ before x after b, xs = before ++ x :: after → good before b →
      Ends (good (before ++ [x])) bad (f b x)) : Ends (good xs) bad (xs.foldlM f b) := by
  induction xs using List.reverseRecOn with
  | nil => exact start
  | append_singleton xs x ih =>
    rw [List.foldlM_append]
    refine (ih fun before y after b same => ?_).bind fun b' reached => ?_
    · exact round before y (after ++ [x]) b (by rw [same]; simp)
    · exact (round xs x [] b' rfl reached).bind fun _ next => next

theorem Ends.foldlM {f : β → α → Except ε β} {good : β → Prop} {b : β} {xs : List α}
    (start : good b) (round : ∀ b x, x ∈ xs → good b → Ends good bad (f b x)) : Ends good bad (xs.foldlM f b) :=
  Ends.foldlM_prefix start fun _ x _ b same => round b x (by simp [same])

end

end JobMatrix
