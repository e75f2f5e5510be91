import Mathlib.Data.Prod.Basic
import JobMatrix.CacheKey
import JobMatrix.Proofs.Text.Percent

set_option autoImplicit false

/-!
Keys are read back. A key falls apart at the bars; what comes first is the scope, if there is one,
and the platform, which hold no equals sign; what follows are the axes with their values. Escaped
parts hold neither delimiter, so that nothing in a part can be taken for the composition.
-/

namespace JobMatrix.CacheKey

structure Parts where
  scope : Option Text
  platform : Text
  assignment : List (Text × Text)
  deriving DecidableEq

/-- Whether a component is that of an axis. -/
def isCell (component : Text) : Bool := component.contains (.char '=')

/-- The axis and the value of a component, around its single equals sign. -/
def cell? (component : Text) : Option (Text × Text) :=
  match component.splitAt '=' with
  | [axis, value] => do return (← Text.percentDecode? axis, ← Text.percentDecode? value)
  | _ => none

def read? (key : Text) : Option Parts := do
  let (front, cells) := (key.splitAt '|').span fun component => !isCell component
  let assignment ← cells.mapM cell?
  match ← front.mapM Text.percentDecode? with
  | [platform] => return ⟨none, platform, assignment⟩
  | [scope, platform] => return ⟨some scope, platform, assignment⟩
  | _ => none

/-! ### What a composition is made of -/

theorem escaped_eq_ok {t e : Text} : escaped t = .ok e ↔ Text.percentEscape t = .ok e :=
  mapError_eq_ok

theorem cellPart_eq_ok {cell : Text × Text} {part : Text} :
    cellPart cell = .ok part ↔
      ∃ axis value, escaped cell.1 = .ok axis ∧ escaped cell.2 = .ok value ∧
        part = axis ++ .char '=' :: value := by
  simp only [cellPart, bind_eq_ok, pure_eq_ok]
  constructor
  · rintro ⟨axis, ha, value, hv, rfl⟩
    exact ⟨axis, value, ha, hv, rfl⟩
  · rintro ⟨axis, value, ha, hv, rfl⟩
    exact ⟨axis, ha, value, hv, rfl⟩

theorem compose_eq_ok {platform key : Text} {assignment : List (Text × Text)}
    {scope : Option Text} :
    compose platform assignment scope = .ok key ↔
      ∃ front cells,
        List.Forall₂ (fun t e => escaped t = .ok e) (scopeParts scope ++ [platform]) front ∧
        List.Forall₂ (fun cell part => cellPart cell = .ok part) assignment cells ∧
        key = Text.joined [.char '|'] (front ++ cells) := by
  simp only [compose, bind_eq_ok, pure_eq_ok, mapM_eq_ok]
  constructor
  · rintro ⟨front, hf, cells, hc, rfl⟩
    exact ⟨front, cells, hf, hc, rfl⟩
  · rintro ⟨front, cells, hf, hc, rfl⟩
    exact ⟨front, hf, cells, hc, rfl⟩

/-! ### Parts hold no delimiter -/

theorem not_mem_escaped {t e : Text} (h : escaped t = .ok e) :
    .char '|' ∉ e ∧ .char '=' ∉ e := by
  have escaping := escaped_eq_ok.mp h
  exact ⟨Text.not_mem_percentEscape escaping (by decide) (by decide),
    Text.not_mem_percentEscape escaping (by decide) (by decide)⟩

theorem isCell_escaped {t e : Text} (h : escaped t = .ok e) : isCell e = false := by
  simpa [isCell] using (not_mem_escaped h).2

theorem isCell_cellPart {cell : Text × Text} {part : Text} (h : cellPart cell = .ok part) :
    isCell part = true := by
  obtain ⟨axis, value, -, -, rfl⟩ := cellPart_eq_ok.mp h
  simp [isCell]

theorem bar_not_mem_cellPart {cell : Text × Text} {part : Text} (h : cellPart cell = .ok part) :
    .char '|' ∉ part := by
  obtain ⟨axis, value, ha, hv, rfl⟩ := cellPart_eq_ok.mp h
  simp [(not_mem_escaped ha).1, (not_mem_escaped hv).1]

/-! ### Parts are read back -/

theorem percentDecode?_escaped {t e : Text} (h : escaped t = .ok e) :
    Text.percentDecode? e = some t :=
  Text.percentDecode?_percentEscape (escaped_eq_ok.mp h)

theorem cell?_cellPart {cell : Text × Text} {part : Text} (h : cellPart cell = .ok part) :
    cell? part = some cell := by
  obtain ⟨axis, value, ha, hv, rfl⟩ := cellPart_eq_ok.mp h
  have split : Text.splitAt (axis ++ .char '=' :: value) '=' = [axis, value] := by
    have apart : ∀ part ∈ [axis, value], .char '=' ∉ part := by
      simp [(not_mem_escaped ha).2, (not_mem_escaped hv).2]
    have whole := List.splitOn_intercalate _ apart (by simp)
    rwa [List.intercalate_cons_cons, List.intercalate_singleton, List.append_assoc] at whole
  simp [cell?, split, percentDecode?_escaped ha, percentDecode?_escaped hv]

/-- A composition falls apart at its bars. -/
theorem splitAt_joined {ts front : List Text} {assignment : List (Text × Text)}
    {cells : List Text} (hf : List.Forall₂ (fun t e => escaped t = .ok e) ts front)
    (hc : List.Forall₂ (fun cell part => cellPart cell = .ok part) assignment cells)
    (nonempty : front ≠ []) :
    (Text.joined [.char '|'] (front ++ cells)).splitAt '|' = front ++ cells := by
  refine List.splitOn_intercalate _ ?_ (by simp [nonempty])
  intro part member
  rcases List.mem_append.mp member with inFront | inCells
  · obtain ⟨t, -, ht⟩ := exists_mem_left_of_forall₂ hf inFront
    exact (not_mem_escaped ht).1
  · obtain ⟨cell, -, hcell⟩ := exists_mem_left_of_forall₂ hc inCells
    exact bar_not_mem_cellPart hcell

/-- A key is read as what it was composed of, an empty scope as none. -/
theorem read?_compose {platform key : Text} {assignment : List (Text × Text)}
    {scope : Option Text} (composed : compose platform assignment scope = .ok key) :
    read? key = some ⟨(scopeParts scope).head?, platform, assignment⟩ := by
  obtain ⟨front, cells, hf, hc, rfl⟩ := compose_eq_ok.mp composed
  have nonempty : front ≠ [] := by
    rintro rfl
    simp at hf
  have apart : (front ++ cells).span (fun c => !isCell c) = (front, cells) := by
    refine span_append (fun e he => ?_) fun part hp => ?_
    · obtain ⟨t, -, ht⟩ := exists_mem_left_of_forall₂ hf he
      simp [isCell_escaped ht]
    · obtain ⟨cell, -, hcell⟩ := exists_mem_left_of_forall₂ hc (List.mem_of_mem_head? hp)
      simp [isCell_cellPart hcell]
  have cellsRead := mapM_eq_some_of_forall₂ (hc.imp fun _ _ h => cell?_cellPart h)
  have frontRead := mapM_eq_some_of_forall₂ (hf.imp fun _ _ h => percentDecode?_escaped h)
  simp only [read?, splitAt_joined hf hc nonempty, apart, cellsRead, frontRead,
    Option.bind_eq_bind, Option.bind_some]
  cases scope with
  | none => rfl
  | some s => cases s <;> rfl

/-! ### Texts of characters -/

def ofStrings (assignment : List (String × String)) : List (Text × Text) :=
  assignment.map (Prod.map Text.ofString Text.ofString)

theorem ofStrings_injective : Function.Injective ofStrings :=
  List.map_injective_iff.mpr (Text.ofString_injective.prodMap Text.ofString_injective)

theorem exists_escaped (s : String) : ∃ e, escaped (Text.ofString s) = .ok e :=
  ⟨_, escaped_eq_ok.mpr (Text.percentEscape_eq_ok.mpr ⟨_, rfl, rfl⟩)⟩

theorem exists_cellPart (cell : String × String) :
    ∃ part, cellPart (Prod.map Text.ofString Text.ofString cell) = .ok part := by
  obtain ⟨axis, ha⟩ := exists_escaped cell.1
  obtain ⟨value, hv⟩ := exists_escaped cell.2
  exact ⟨_, cellPart_eq_ok.mpr ⟨axis, value, ha, hv, rfl⟩⟩

theorem scopeParts_ofString (scope : Option String) :
    scopeParts (scope.map Text.ofString) =
      ((scope.filter (· ≠ "")).map Text.ofString).toList := by
  cases scope with
  | none => rfl
  | some s =>
    by_cases empty : s = ""
    · subst empty
      rfl
    · have : Text.ofString s ≠ [] := fun h => empty (Text.ofString_injective h)
      simp [scopeParts, Option.filter, empty, this]

theorem exists_compose (platform : String) (assignment : List (String × String))
    (scope : Option String) :
    ∃ key, compose platform (ofStrings assignment) (scope.map Text.ofString) = .ok key := by
  have fronts : ∀ t ∈ scopeParts (scope.map Text.ofString) ++ [Text.ofString platform],
      ∃ e, escaped t = .ok e := by
    intro t member
    rcases List.mem_append.mp member with inScope | isPlatform
    · rw [scopeParts_ofString, Option.mem_toList] at inScope
      obtain ⟨s, -, rfl⟩ := Option.map_eq_some_iff.mp inScope
      exact exists_escaped s
    · rw [List.mem_singleton.mp isPlatform]
      exact exists_escaped platform
  have cells : ∀ cell ∈ ofStrings assignment, ∃ part, cellPart cell = .ok part := by
    intro cell member
    obtain ⟨c, -, rfl⟩ := List.mem_map.mp member
    exact exists_cellPart c
  obtain ⟨front, hf⟩ := exists_mapM_eq_ok fronts
  obtain ⟨parts, hp⟩ := exists_mapM_eq_ok cells
  exact ⟨_, compose_eq_ok.mpr ⟨front, parts, mapM_eq_ok.mp hf, mapM_eq_ok.mp hp, rfl⟩⟩

theorem read?_compose_ofStrings {platform : String} {assignment : List (String × String)}
    {scope : Option String} {key : Text}
    (composed : compose platform (ofStrings assignment) (scope.map Text.ofString) = .ok key) :
    read? key = some
      ⟨(scope.filter (· ≠ "")).map Text.ofString, platform, ofStrings assignment⟩ := by
  rw [read?_compose composed, scopeParts_ofString, Option.head?_toList]

theorem filter_ne_empty_inj {scope scope' : Option String} :
    scope.filter (· ≠ "") = scope'.filter (· ≠ "") ↔ scope.getD "" = scope'.getD "" := by
  have read (s : Option String) : s.getD "" = (s.filter (· ≠ "")).getD "" := by
    cases s <;> grind
  constructor
  · intro same
    rw [read scope, read scope', same]
  · intro same
    cases scope <;> cases scope' <;> grind

/-- Keys are uniquely decodable. -/
theorem compose_uniquely_decodable (platform platform' : String)
    (assignment assignment' : List (String × String)) (scope scope' : Option String) :
    (∃ key, compose platform (ofStrings assignment) (scope.map Text.ofString) = .ok key ∧
      read? key = some
        ⟨(scope.filter (· ≠ "")).map Text.ofString, platform, ofStrings assignment⟩) ∧
    (compose platform (ofStrings assignment) (scope.map Text.ofString) =
        compose platform' (ofStrings assignment') (scope'.map Text.ofString) ↔
      platform = platform' ∧ assignment = assignment' ∧ scope.getD "" = scope'.getD "") := by
  obtain ⟨key, composed⟩ := exists_compose platform assignment scope
  refine ⟨⟨key, composed, read?_compose_ofStrings composed⟩, ?_, ?_⟩
  · intro same
    have read := read?_compose_ofStrings composed
    have read' := read?_compose_ofStrings (same ▸ composed)
    rw [read] at read'
    obtain ⟨scopes, platforms, assignments⟩ := Parts.mk.inj (Option.some.inj read')
    exact ⟨Text.ofString_injective platforms, ofStrings_injective assignments,
      filter_ne_empty_inj.mp (Option.map_injective Text.ofString_injective scopes)⟩
  · rintro ⟨rfl, rfl, scopes⟩
    simp only [compose, scopeParts_ofString, filter_ne_empty_inj.mpr scopes]

end JobMatrix.CacheKey
