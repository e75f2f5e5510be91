import JobMatrix.Plan
import JobMatrix.Proofs.Outcome

set_option autoImplicit false

/-!
Looking into JSON. The JSON form of a list has an item for each element, and that of a record a
member for each of its own, so that what a path of names leads to in a record is the form of what
the record has there.
-/

namespace JobMatrix

namespace Json

/-- The member of an object with a name. -/
def member? (j : Json) (name : Text) : Option Json :=
  match j with
  | .object members => find (· == ·) members name
  | _ => none

/-- What a path of names leads to. -/
def at? : Json → List Text → Option Json
  | j, [] => some j
  | j, name :: rest => (j.member? name).bind fun inner => at? inner rest

end Json

namespace Value

/-! ### Equations -/

theorem itemsToJson_cons (v : Value) (items : List Value) :
    itemsToJson (v :: items) =
      v.toJson >>= fun j => itemsToJson items >>= fun js => pure (j :: js) := rfl

theorem entriesToJson_cons (name : Text) (v : Value) (entries : List (Value × Value)) :
    entriesToJson ((.text name, v) :: entries) =
      v.toJson >>= fun j => entriesToJson entries >>= fun js => pure ((name, j) :: js) := rfl

theorem toJson_list (items : List Value) :
    (Value.list items).toJson = itemsToJson items >>= fun js => pure (.array js) := rfl

theorem toJson_map (entries : List (Value × Value)) :
    (Value.map entries).toJson = entriesToJson entries >>= fun js => pure (.object js) := rfl

/-! ### Items and members -/

theorem itemsToJson_eq_ok {items : List Value} {js : List Json} :
    itemsToJson items = .ok js ↔ List.Forall₂ (fun v j => v.toJson = .ok j) items js := by
  induction items generalizing js with
  | nil =>
    rw [List.forall₂_nil_left_iff]
    exact ⟨fun h => (Except.ok.inj h).symm, fun h => congrArg Except.ok h.symm⟩
  | cons v items ih =>
    simp only [itemsToJson_cons, bind_eq_ok, pure_eq_ok, ih, List.forall₂_cons_left_iff]
    constructor
    · rintro ⟨j, hj, js, hjs, rfl⟩
      exact ⟨j, js, hj, hjs, rfl⟩
    · rintro ⟨j, js, hj, hjs, rfl⟩
      exact ⟨j, hj, js, hjs, rfl⟩

theorem entriesToJson_eq_ok {members : Entries Value} {js : List (Text × Json)} :
    entriesToJson (members.map fun m => (.text m.1, m.2)) = .ok js ↔
      List.Forall₂ (fun m j => j.1 = m.1 ∧ m.2.toJson = .ok j.2) members js := by
  induction members generalizing js with
  | nil =>
    rw [List.forall₂_nil_left_iff]
    exact ⟨fun h => (Except.ok.inj h).symm, fun h => congrArg Except.ok h.symm⟩
  | cons m members ih =>
    simp only [List.map_cons, entriesToJson_cons, bind_eq_ok, pure_eq_ok, ih,
      List.forall₂_cons_left_iff]
    constructor
    · rintro ⟨j, hj, js, hjs, rfl⟩
      exact ⟨(m.1, j), js, ⟨rfl, hj⟩, hjs, rfl⟩
    · rintro ⟨⟨_, j⟩, js, ⟨rfl, hj⟩, hjs, rfl⟩
      exact ⟨j, hj, js, hjs, rfl⟩

theorem toJson_list_eq_ok {items : List Value} {j : Json} :
    (Value.list items).toJson = .ok j ↔
      ∃ js, j = .array js ∧ List.Forall₂ (fun v j => v.toJson = .ok j) items js := by
  simp only [toJson_list, bind_eq_ok, pure_eq_ok, itemsToJson_eq_ok]
  constructor
  · rintro ⟨js, each, rfl⟩
    exact ⟨js, rfl, each⟩
  · rintro ⟨js, rfl, each⟩
    exact ⟨js, each, rfl⟩

theorem toJson_record_eq_ok {members : Entries Value} {j : Json} :
    (Value.record members).toJson = .ok j ↔
      ∃ js, j = .object js ∧
        List.Forall₂ (fun m k => k.1 = m.1 ∧ m.2.toJson = .ok k.2) members js := by
  simp only [record, toJson_map, bind_eq_ok, pure_eq_ok, entriesToJson_eq_ok]
  constructor
  · rintro ⟨js, each, rfl⟩
    exact ⟨js, rfl, each⟩
  · rintro ⟨js, rfl, each⟩
    exact ⟨js, each, rfl⟩

/-- A member of a record has the JSON form of its value, and there are no others. -/
theorem member?_record {members : Entries Value} {j : Json}
    (made : (Value.record members).toJson = .ok j) (name : Text) :
    Option.Rel (fun v k => v.toJson = .ok k) (members.get? name) (j.member? name) := by
  obtain ⟨js, rfl, each⟩ := toJson_record_eq_ok.mp made
  clear made
  change Option.Rel _ (find (· == ·) members name) (find (· == ·) js name)
  induction each with
  | nil => exact .none
  | @cons m k members js first _ ih =>
    obtain ⟨key, form⟩ := first
    obtain ⟨_, v⟩ := m
    obtain ⟨_, w⟩ := k
    obtain rfl : _ = _ := key
    unfold find
    split
    · exact .some form
    · exact ih

theorem exists_member?_record {members : Entries Value} {j : Json}
    (made : (Value.record members).toJson = .ok j) (name : Text) {v : Value}
    (has : members.get? name = some v) :
    ∃ k, j.member? name = some k ∧ v.toJson = .ok k := by
  have related := member?_record made name
  rw [has] at related
  cases found : j.member? name with
  | none => rw [found] at related; cases related
  | some k =>
    rw [found] at related
    cases related with
    | some form => exact ⟨k, rfl, form⟩

theorem member?_record_eq_none {members : Entries Value} {j : Json}
    (made : (Value.record members).toJson = .ok j) {name : Text}
    (lacks : members.get? name = none) : j.member? name = none := by
  have related := member?_record made name
  rw [lacks] at related
  cases found : j.member? name with
  | none => rfl
  | some k => rw [found] at related; cases related

theorem member?_record_text {members : Entries Value} {j : Json}
    (made : (Value.record members).toJson = .ok j) {name s : Text}
    (has : members.get? name = some (.text s)) : j.member? name = some (.string s) := by
  obtain ⟨k, found, form⟩ := exists_member?_record made name has
  obtain rfl := Except.ok.inj form
  exact found

end Value

end JobMatrix
