import JobMatrix.Proofs.Json.Members

set_option autoImplicit false

/-!
Which values have a JSON form: those made of null, truth values, texts, numbers that can be printed,
lists, tuples and mappings whose keys are no composite ones, and that are not met again inside
themselves.
-/

namespace JobMatrix

/-- The integer can be printed. -/
def Integer.Short (n : Int) : Prop := n.natAbs < Nat.pow 10 maxDigits

theorem Integer.text?_of_short {n : Int} (short : Short n) : text? n = some (toString n) :=
  if_pos short

theorem Integer.short_of_text? {n : Int} {s : String} (shown : text? n = some s) :
    Short n ∧ s = toString n := by
  unfold text? at shown
  split at shown
  next short => exact ⟨short, (Option.some.inj shown).symm⟩
  next => contradiction

theorem Integer.not_short_of_text? {n : Int} (hidden : text? n = none) : ¬ Short n := by
  intro short
  rw [text?_of_short short] at hidden
  contradiction

namespace Value

/-- A key that JSON has a member name for. -/
inductive JsonKey : Value → Prop where
  | null : JsonKey .null
  | bool {b : Bool} : JsonKey (.bool b)
  | int {n : Int} : Integer.Short n → JsonKey (.int n)
  | float {x : Binary64} : JsonKey (.float x)
  | text {s : Text} : JsonKey (.text s)

inductive Jsonable : Value → Prop where
  | null : Jsonable .null
  | bool {b : Bool} : Jsonable (.bool b)
  | int {n : Int} : Integer.Short n → Jsonable (.int n)
  | float {x : Binary64} : Jsonable (.float x)
  | text {s : Text} : Jsonable (.text s)
  | list {items : List Value} : (∀ v ∈ items, Jsonable v) → Jsonable (.list items)
  | tuple {items : List Value} : (∀ v ∈ items, Jsonable v) → Jsonable (.tuple items)
  | map {entries : List (Value × Value)} : (∀ e ∈ entries, JsonKey e.1) →
      (∀ e ∈ entries, Jsonable e.2) → Jsonable (.map entries)

/-! ### One step of the form -/

theorem toJson_tuple (items : List Value) :
    (Value.tuple items).toJson = itemsToJson items >>= fun js => pure (.array js) := rfl

theorem jsonKey_int_eq_ok {n : Int} {name : Text} :
    (Value.int n).jsonKey = .ok name ↔ Integer.Short n ∧ name = Text.ofString (toString n) := by
  rw [jsonKey.eq_def]
  dsimp only
  split
  next s shown =>
    obtain ⟨short, rfl⟩ := Integer.short_of_text? shown
    rw [Except.ok.injEq, and_iff_right short]
    exact eq_comm
  next hidden => simp [Integer.not_short_of_text? hidden]

theorem toJson_int_eq_ok {n : Int} {j : Json} :
    (Value.int n).toJson = .ok j ↔ Integer.Short n ∧ j = .number (toString n) := by
  rw [toJson.eq_def]
  dsimp only
  split
  next s shown =>
    obtain ⟨short, rfl⟩ := Integer.short_of_text? shown
    rw [Except.ok.injEq, and_iff_right short]
    exact eq_comm
  next hidden => simp [Integer.not_short_of_text? hidden]

theorem exists_jsonKey_iff {v : Value} : (∃ name, v.jsonKey = .ok name) ↔ v.JsonKey := by
  constructor
  · rintro ⟨name, made⟩
    cases v with
    | null => exact .null
    | bool => exact .bool
    | float => exact .float
    | text => exact .text
    | int n => exact .int (jsonKey_int_eq_ok.mp made).1
    | bytes | date | timestamp | list | tuple | set | map | again => cases made
  · intro key
    cases key with
    | null => exact ⟨_, rfl⟩
    | bool => exact ⟨_, rfl⟩
    | float => exact ⟨_, rfl⟩
    | text => exact ⟨_, rfl⟩
    | int short => exact ⟨_, jsonKey_int_eq_ok.mpr ⟨short, rfl⟩⟩

theorem entriesToJson_eq_ok_cons {k v : Value} {entries : List (Value × Value)}
    {js : List (Text × Json)} : entriesToJson ((k, v) :: entries) = .ok js ↔
      ∃ name j more, k.jsonKey = .ok name ∧ v.toJson = .ok j ∧ entriesToJson entries = .ok more ∧
        js = (name, j) :: more := by
  have spelled : entriesToJson ((k, v) :: entries) = k.jsonKey >>= fun name => v.toJson >>=
      fun j => entriesToJson entries >>= fun more => pure ((name, j) :: more) := rfl
  simp only [spelled, bind_eq_ok, pure_eq_ok]
  constructor
  · rintro ⟨name, hn, j, hj, more, hm, rfl⟩
    exact ⟨name, j, more, hn, hj, hm, rfl⟩
  · rintro ⟨name, j, more, hn, hj, hm, rfl⟩
    exact ⟨name, hn, j, hj, more, hm, rfl⟩

/-! ### The whole form -/

mutual

theorem jsonable_of_toJson (v : Value) {j : Json} (made : v.toJson = .ok j) : v.Jsonable := by
  cases v with
  | null => exact .null
  | bool => exact .bool
  | int n => exact .int (toJson_int_eq_ok.mp made).1
  | float => exact .float
  | text => exact .text
  | list items =>
    rw [toJson_list] at made
    obtain ⟨js, each, -⟩ := bind_eq_ok.mp made
    exact .list (jsonable_of_itemsToJson items each)
  | tuple items =>
    rw [toJson_tuple] at made
    obtain ⟨js, each, -⟩ := bind_eq_ok.mp made
    exact .tuple (jsonable_of_itemsToJson items each)
  | map entries =>
    rw [toJson_map] at made
    obtain ⟨js, each, -⟩ := bind_eq_ok.mp made
    obtain ⟨keys, values⟩ := jsonable_of_entriesToJson entries each
    exact .map keys values
  | bytes | date | timestamp | set | again => cases made

theorem jsonable_of_itemsToJson (items : List Value) {js : List Json}
    (made : itemsToJson items = .ok js) : ∀ v ∈ items, v.Jsonable := by
  cases items with
  | nil => exact List.forall_mem_nil _
  | cons v items =>
    rw [itemsToJson_cons] at made
    obtain ⟨j, first, made⟩ := bind_eq_ok.mp made
    obtain ⟨js, rest, -⟩ := bind_eq_ok.mp made
    exact List.forall_mem_cons.mpr
      ⟨jsonable_of_toJson v first, jsonable_of_itemsToJson items rest⟩

theorem jsonable_of_entriesToJson (entries : List (Value × Value)) {js : List (Text × Json)}
    (made : entriesToJson entries = .ok js) :
    (∀ e ∈ entries, e.1.JsonKey) ∧ ∀ e ∈ entries, e.2.Jsonable := by
  cases entries with
  | nil => exact ⟨List.forall_mem_nil _, List.forall_mem_nil _⟩
  | cons e entries =>
    obtain ⟨k, v⟩ := e
    obtain ⟨name, j, more, key, value, rest, -⟩ := entriesToJson_eq_ok_cons.mp made
    obtain ⟨keys, values⟩ := jsonable_of_entriesToJson entries rest
    exact ⟨List.forall_mem_cons.mpr ⟨exists_jsonKey_iff.mp ⟨name, key⟩, keys⟩,
      List.forall_mem_cons.mpr ⟨jsonable_of_toJson v value, values⟩⟩

end

end Value

end JobMatrix
