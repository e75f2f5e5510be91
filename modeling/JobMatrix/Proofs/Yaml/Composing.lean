import JobMatrix.Proofs.Yaml.Lexing
import JobMatrix.Proofs.Yaml.Parsing
import JobMatrix.Yaml.Node

set_option autoImplicit false

/-!
What can be wrong with a YAML text before any of its data is made. Besides problems to report there
are only characters that are not allowed, the numbers that stop its tokens, and collections that lie
within one another too deep.
-/

namespace JobMatrix.Yaml

/-- The event begins a collection. -/
def Event.Opens (e : Event) : Prop :=
  match e.kind with
  | .sequenceStart _ _ | .mappingStart _ _ => True
  | _ => False

/-- The number of collections that are open after an event, by that before it. -/
def Event.depthAfter (before : Nat) (e : Event) : Nat :=
  match e.kind with
  | .sequenceStart _ _ | .mappingStart _ _ => before + 1
  | .sequenceEnd | .mappingEnd => before - 1
  | _ => before

/-- The number of collections that events leave open. -/
def openAfter (events : List Event) : Nat := events.foldl Event.depthAfter 0

/-- Among the events one begins a collection inside too many others. -/
def TooDeep (events : List Event) : Prop :=
  ∃ before e after, events = before ++ e :: after ∧ e.Opens ∧
    Composition.depthReach ≤ openAfter before

/-- What the text itself is refused for. -/
inductive TextFault (text : List Char) : Fault → Prop where
  | scan {f : Fault} (fault : ScanFault text f) : TextFault text f
  | character (c : Char) (index : Nat) (here : text[index]? = some c)
      (refused : isAllowed c = false) : TextFault text (.character c index)
  | tooDeep (deep : TooDeep (EventStream.ofTokens (.ofText text)).events) : TextFault text .tooDeep

namespace Composition

variable {c : Composition} {events : List Event}

@[simp] theorem length_stack_place (c : Composition) (id : Nat) :
    (c.place id).stack.length = c.stack.length := by
  unfold place
  split
  next none => rfl
  next top rest same => rw [same]; rfl

theorem length_stack_finish (c : Composition) : c.finish.stack.length = c.stack.length - 1 := by
  unfold finish
  split
  next none => rw [none]; rfl
  next top rest same => rw [same]; rfl

/-- An event is refused with a report, or for the number of collections that are open. -/
def Refused (c : Composition) (e : Event) (f : Fault) : Prop :=
  (∃ r, f = .report r) ∨ f = .tooDeep ∧ e.Opens ∧ depthReach ≤ c.stack.length

/-- So many collections are open afterwards, unless the event is refused. -/
abbrev Composes (c : Composition) (e : Event) (depth : Nat) : Reading Composition → Prop :=
  Ends (fun c' => c'.stack.length = depth) (c.Refused e)

theorem composes_anchorAt (c : Composition) (e : Event) (anchor : Option String) (m : Mark) :
    c.Composes e c.stack.length (c.anchorAt anchor m) := by
  unfold anchorAt
  split
  next => rfl
  next =>
    split
    next => exact .inl ⟨_, rfl⟩
    next => rfl

theorem composes_begin (c : Composition) (e : Event) (opens : e.Opens) (anchor : Option String)
    (node : Node) (isMapping : Bool) :
    c.Composes e (c.stack.length + 1) (c.begin anchor node isMapping) := by
  unfold begin
  refine Ends.ite (fun deep => .inr ⟨rfl, opens, deep⟩) fun _ => ?_
  exact (composes_anchorAt c e anchor node.start).bind fun c' same => by simp [same]

theorem composes_step (c : Composition) (e : Event) :
    c.Composes e (e.depthAfter c.stack.length) (c.step e) := by
  obtain ⟨kind, start⟩ := e
  match kind with
  | .documentStart => exact Ends.ite (fun _ => Or.inl ⟨_, rfl⟩) fun _ => rfl
  | .documentEnd => rfl
  | .streamEnd => rfl
  | .alias name =>
    unfold step
    dsimp only
    split
    next => exact c.length_stack_place _
    next => exact Or.inl ⟨_, rfl⟩
  | .scalar anchor tag plain text =>
    refine (composes_anchorAt c _ anchor start).bind fun c' same => ?_
    exact (length_stack_place c' _).trans same
  | .sequenceStart anchor tag =>
    exact c.composes_begin ⟨.sequenceStart anchor tag, start⟩ trivial _ _ _
  | .mappingStart anchor tag =>
    exact c.composes_begin ⟨.mappingStart anchor tag, start⟩ trivial _ _ _
  | .sequenceEnd => exact c.length_stack_finish
  | .mappingEnd => exact c.length_stack_finish

end Composition

/-- Composing events fails with a report, for the depth of the collections, or with what stops the
events themselves. -/
theorem Graph.fault_of_ofEvents {stream : EventStream} {f : Fault}
    (h : ofEvents stream = .error f) :
    (∃ r, f = .report r) ∨ f = .tooDeep ∧ TooDeep stream.events ∨ stream.fault = some f := by
  have composed : Ends (fun c : Composition => c.stack.length = openAfter stream.events)
      (fun f => (∃ r, f = .report r) ∨ f = .tooDeep ∧ TooDeep stream.events)
      (stream.events.foldlM Composition.step {}) := by
    refine @Ends.foldlM_prefix _ _ _ _ _
      (fun before (c : Composition) => c.stack.length = openAfter before) _ _ rfl ?_
    intro before e after c same depth
    refine (c.composes_step e).mono (fun c' reached => ?_) ?_
    · rw [reached, depth, openAfter, openAfter, List.foldl_append]
      rfl
    · rintro f (report | ⟨rfl, opens, deep⟩)
      · exact .inl report
      · exact .inr ⟨rfl, before, e, after, same, opens, depth ▸ deep⟩
  unfold ofEvents at h
  rcases bind_eq_error.mp h with failed | ⟨c, -, stopped⟩
  · rw [failed] at composed
    exact composed.imp_right .inl
  · split at stopped
    next fault => exact .inr (.inr (by simpa [fault] using stopped))
    next => simp at stopped

/-- Whatever a text is refused for before its data is made is a fault of the text. -/
theorem Graph.textFault_of_ofText {text : List Char} {f : Fault} (h : ofText text = .error f) :
    TextFault text f := by
  unfold ofText at h
  rcases bind_eq_error.mp h with unchecked | ⟨_, -, refused⟩
  · unfold checkCharacters at unchecked
    dsimp only at unchecked
    split at unchecked
    next => cases unchecked
    next c rest later =>
      obtain rfl := Except.error.inj unchecked
      have rest : text.dropWhile isAllowed = c :: rest := by
        have parts : text.takeWhile isAllowed ++ text.dropWhile isAllowed = text :=
          List.takeWhile_append_dropWhile
        rw [← later, ← congrArg (List.drop (text.takeWhile isAllowed).length) parts, List.drop_left]
      refine .character c _ ?_ ?_
      · rw [← List.head?_drop, later]
        rfl
      · have first := List.head?_dropWhile_not isAllowed text
        rwa [rest] at first
  · rcases fault_of_ofEvents refused with ⟨r, rfl⟩ | ⟨rfl, deep⟩ | stopped
    · exact .scan (.report r)
    · exact .tooDeep deep
    · rcases EventStream.fault_of_ofTokens stopped with ⟨r, rfl⟩ | stopped
      · exact .scan (.report r)
      · exact .scan (TokenStream.scanFault_of_ofText stopped)

end JobMatrix.Yaml
