import JobMatrix.Entries
import Mathlib.Data.List.Nodup

set_option autoImplicit false

/-!
Entries as mappings. Setting a key decides what is found under this key and under no other;
entries that were made by setting keys have every key once.
-/

namespace JobMatrix.Entries

variable {α β : Type}

theorem get?_nil (key : Text) : get? ([] : Entries α) key = none := rfl

theorem get?_cons (key other : Text) (value : α) (entries : Entries α) :
    get? ((key, value) :: entries) other = if key = other then some value else entries.get? other := by
  simp only [get?, find, beq_iff_eq]

theorem set_cons (k key : Text) (v value : α) (entries : Entries α) :
    set ((k, v) :: entries) key value =
      if k = key then (k, value) :: entries else (k, v) :: entries.set key value := by
  simp only [set, put, beq_iff_eq]

theorem get?_eq_none_iff {entries : Entries α} {key : Text} :
    entries.get? key = none ↔ key ∉ entries.keys := by
  induction entries with
  | nil => simp [get?_nil, keys]
  | cons e entries ih =>
    obtain ⟨k, v⟩ := e
    simp only [keys] at ih
    rw [get?_cons]
    split
    next same => simp [keys, same]
    next other => simp [keys, ih, Ne.symm other]

theorem mem_of_find {κ : Type} [BEq κ] [LawfulBEq κ] {entries : List (κ × α)} {key : κ} {value : α}
    (found : find (· == ·) entries key = some value) : (key, value) ∈ entries := by
  induction entries with
  | nil => simp [find] at found
  | cons e entries ih =>
    obtain ⟨k, v⟩ := e
    simp only [find] at found
    split at found
    next same =>
      obtain rfl := eq_of_beq same
      obtain rfl := Option.some.inj found
      exact List.mem_cons_self
    next => exact List.mem_cons_of_mem _ (ih found)

theorem mem_of_get?_eq_some {entries : Entries α} {key : Text} {value : α}
    (found : entries.get? key = some value) : (key, value) ∈ entries :=
  mem_of_find found

theorem get?_eq_some_of_mem {entries : Entries α} (distinct : entries.keys.Nodup) {key : Text}
    {value : α} (member : (key, value) ∈ entries) : entries.get? key = some value := by
  induction entries with
  | nil => simp at member
  | cons e entries ih =>
    obtain ⟨k, v⟩ := e
    obtain ⟨fresh, distinct⟩ := List.nodup_cons.mp distinct
    rw [get?_cons]
    rcases List.mem_cons.mp member with same | later
    · obtain ⟨rfl, rfl⟩ := Prod.mk.inj same
      exact if_pos rfl
    · rw [if_neg, ih distinct later]
      rintro rfl
      exact fresh (List.mem_map.mpr ⟨_, later, rfl⟩)

theorem get?_map (f : α → β) (entries : Entries α) (key : Text) :
    get? (entries.map fun e => (e.1, f e.2)) key = (entries.get? key).map f := by
  induction entries with
  | nil => rfl
  | cons e entries ih =>
    obtain ⟨k, v⟩ := e
    rw [List.map_cons, get?_cons, get?_cons, ih]
    split <;> rfl

theorem keys_map (f : Text × α → β) (entries : Entries α) :
    keys (entries.map fun e => (e.1, f e)) = entries.keys := by
  simp only [keys, List.map_map, Function.comp_def]

/-! ### Setting a key -/

/-- What is found after a key of any kind has been set. -/
theorem find_put {κ : Type} [BEq κ] [LawfulBEq κ] (entries : List (κ × α)) (key : κ) (value : α)
    (other : κ) : find (· == ·) (put (· == ·) entries key value) other =
      if key == other then some value else find (· == ·) entries other := by
  induction entries with
  | nil => rfl
  | cons e entries ih =>
    obtain ⟨k, v⟩ := e
    simp only [put]
    split
    next same =>
      obtain rfl := eq_of_beq same
      simp only [find]
      split <;> rfl
    next different =>
      simp only [find, ih]
      split
      next here =>
        rw [if_neg fun same => different (beq_iff_eq.mpr ((eq_of_beq here).trans (eq_of_beq same).symm))]
      next => rfl

theorem get?_set (entries : Entries α) (key : Text) (value : α) (other : Text) :
    (entries.set key value).get? other = if key = other then some value else entries.get? other := by
  simp only [set, get?, find_put, beq_iff_eq]

theorem keys_set (entries : Entries α) (key : Text) (value : α) :
    (entries.set key value).keys =
      if key ∈ entries.keys then entries.keys else entries.keys ++ [key] := by
  induction entries with
  | nil => rfl
  | cons e entries ih =>
    obtain ⟨k, v⟩ := e
    rw [set_cons]
    simp only [keys] at ih ⊢
    split
    next same => simp [same]
    next different =>
      have elsewhere : key ∈ k :: entries.map Prod.fst ↔ key ∈ entries.map Prod.fst := by
        simp [Ne.symm different]
      simp only [List.map_cons, ih, elsewhere, List.cons_append]
      exact (apply_ite (k :: ·) _ _ _)

theorem nodup_keys_set {entries : Entries α} (distinct : entries.keys.Nodup) (key : Text)
    (value : α) : (entries.set key value).keys.Nodup := by
  rw [keys_set]
  split
  next => exact distinct
  next new =>
    rw [List.nodup_append]
    refine ⟨distinct, List.nodup_singleton key, fun k hk l hl => ?_⟩
    obtain rfl := List.mem_singleton.mp hl
    exact fun same => new (same ▸ hk)

theorem set_of_notMem {entries : Entries α} {key : Text} (new : key ∉ entries.keys) (value : α) :
    entries.set key value = entries ++ [(key, value)] := by
  induction entries with
  | nil => rfl
  | cons e entries ih =>
    obtain ⟨k, v⟩ := e
    simp only [keys, List.map_cons, List.mem_cons, not_or] at new
    rw [set_cons, if_neg (Ne.symm new.1), ih new.2]
    rfl

theorem mem_set {entries : Entries α} {key : Text} {value : α} {e : Text × α}
    (member : e ∈ entries.set key value) : e ∈ entries ∨ e = (key, value) := by
  induction entries with
  | nil => exact .inr (List.mem_singleton.mp member)
  | cons d entries ih =>
    obtain ⟨k, v⟩ := d
    rw [set_cons] at member
    split at member
    next same =>
      subst same
      rcases List.mem_cons.mp member with rfl | later
      · exact .inr rfl
      · exact .inl (List.mem_cons_of_mem _ later)
    next =>
      rcases List.mem_cons.mp member with rfl | later
      · exact .inl List.mem_cons_self
      · exact (ih later).imp_left (List.mem_cons_of_mem _)

theorem map_set (f : α → β) (entries : Entries α) (key : Text) (value : α) :
    (entries.set key value).map (fun e => (e.1, f e.2)) =
      set (entries.map fun e => (e.1, f e.2)) key (f value) := by
  induction entries with
  | nil => rfl
  | cons e entries ih =>
    obtain ⟨k, v⟩ := e
    rw [set_cons, List.map_cons, set_cons]
    split
    next => rfl
    next => rw [List.map_cons, ih]

/-! ### Setting many keys -/

theorem update_cons (entries changes : Entries α) (change : Text × α) :
    entries.update (change :: changes) = (entries.set change.1 change.2).update changes := rfl

theorem map_update (f : α → β) (entries changes : Entries α) :
    (entries.update changes).map (fun e => (e.1, f e.2)) =
      update (entries.map fun e => (e.1, f e.2)) (changes.map fun e => (e.1, f e.2)) := by
  induction changes generalizing entries with
  | nil => rfl
  | cons change changes ih => rw [update_cons, ih, map_set, List.map_cons, update_cons]

theorem ofPairs_eq_update (pairs : Entries α) : ofPairs pairs = update [] pairs := rfl

theorem nodup_keys_update {entries : Entries α} (distinct : entries.keys.Nodup)
    (changes : Entries α) : (entries.update changes).keys.Nodup := by
  induction changes generalizing entries with
  | nil => exact distinct
  | cons change changes ih => exact ih (nodup_keys_set distinct change.1 change.2)

theorem nodup_keys_ofPairs (pairs : Entries α) : (ofPairs pairs).keys.Nodup := by
  have distinct : (keys ([] : Entries α)).Nodup := List.nodup_nil
  rw [ofPairs_eq_update]
  exact nodup_keys_update distinct pairs

theorem mem_update {entries changes : Entries α} {e : Text × α}
    (member : e ∈ entries.update changes) : e ∈ entries ∨ e ∈ changes := by
  induction changes generalizing entries with
  | nil => exact .inl member
  | cons change changes ih =>
    rcases ih member with before | later
    · rcases mem_set before with old | rfl
      · exact .inl old
      · exact .inr List.mem_cons_self
    · exact .inr (List.mem_cons_of_mem _ later)

theorem mem_of_mem_ofPairs {pairs : Entries α} {e : Text × α} (member : e ∈ ofPairs pairs) :
    e ∈ pairs := by
  simpa using mem_update member

theorem update_eq_append {entries changes : Entries α}
    (distinct : (entries ++ changes).keys.Nodup) : entries.update changes = entries ++ changes := by
  induction changes generalizing entries with
  | nil => exact (List.append_nil entries).symm
  | cons change changes ih =>
    have new : change.1 ∉ entries.keys := by
      intro member
      simp only [keys, List.map_append, List.map_cons] at distinct
      exact (List.disjoint_of_nodup_append distinct) member List.mem_cons_self
    have joined : entries ++ change :: changes = entries ++ [change] ++ changes := by simp
    rw [update_cons, set_of_notMem new, joined]
    exact ih (joined ▸ distinct)

theorem ofPairs_eq_self {pairs : Entries α} (distinct : pairs.keys.Nodup) : ofPairs pairs = pairs :=
  update_eq_append distinct

theorem ofPairs_ofPairs (pairs : Entries α) : ofPairs (ofPairs pairs) = ofPairs pairs :=
  ofPairs_eq_self (nodup_keys_ofPairs pairs)

/-- An overridden key has its new value, any other the value that it had. -/
theorem get?_update {entries changes : Entries α} (distinct : changes.keys.Nodup) (key : Text) :
    (entries.update changes).get? key = (changes.get? key).or (entries.get? key) := by
  induction changes generalizing entries with
  | nil => rfl
  | cons change changes ih =>
    obtain ⟨k, v⟩ := change
    obtain ⟨fresh, distinct⟩ := List.nodup_cons.mp distinct
    rw [update_cons, ih distinct, get?_set, get?_cons]
    split
    next same =>
      rw [get?_eq_none_iff.mpr (same ▸ fresh)]
      rfl
    next => rfl

end JobMatrix.Entries
