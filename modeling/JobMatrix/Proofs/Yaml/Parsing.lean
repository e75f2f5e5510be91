import JobMatrix.Proofs.Outcome
import JobMatrix.Yaml.Event

set_option autoImplicit false

/-!
What can stop the event stream of a text. The grammar has problems of its own to report; whatever
else stops it ended the tokens before.
-/

namespace JobMatrix.Yaml

namespace Grammar

variable {α β : Type}

/-- The step has a problem to report, or stops where the tokens do. -/
def Parses (p : Parsing α) : Prop :=
  ∀ g : Grammar, Ends (fun r => r.2.stream.fault = g.stream.fault)
    (fun f => (∃ r, f = .report r) ∨ g.stream.fault = some f) (p.run g)

theorem Parses.pure (a : α) : Parses (pure a) := fun _ => rfl

theorem Parses.bind {p : Parsing α} {q : α → Parsing β} (first : Parses p)
    (later : ∀ a, Parses (q a)) : Parses (p >>= q) := by
  intro g
  refine Ends.bind (first g) fun r kept => (later r.1 r.2).mono (fun _ same => same.trans kept) ?_
  rintro f (report | stopped)
  · exact .inl report
  · exact .inr (kept ▸ stopped)

theorem Parses.ite {c : Prop} [Decidable c] {p q : Parsing α} (yes : Parses p) (no : Parses q) :
    Parses (if c then p else q) := by
  split
  next => exact yes
  next => exact no

theorem parses_get : Parses get := fun _ => rfl

theorem parses_modify {change : Grammar → Grammar}
    (kept : ∀ g, (change g).stream.fault = g.stream.fault) : Parses (modify change) := kept

theorem parses_fail (context : String) (since : Mark) (problem : String) (at_ : Mark) :
    Parses (fail context since problem at_ : Parsing α) := fun _ => .inl ⟨_, rfl⟩

theorem parses_failPlain (problem : String) (at_ : Mark) :
    Parses (failPlain problem at_ : Parsing α) := fun _ => .inl ⟨_, rfl⟩

theorem parses_peek : Parses peek := by
  intro g
  rw [peek, StateT.run_bind, StateT.run_get, pure_bind]
  split
  next => rfl
  next stopped => exact .inr stopped
  next => rfl

theorem parses_take : Parses take :=
  .bind parses_peek fun _ => .bind (parses_modify fun _ => rfl) fun _ => .pure _

theorem parses_expect (e : Expectation) : Parses (expect e) := parses_modify fun _ => rfl

theorem parses_defer (e : Expectation) : Parses (defer e) := parses_modify fun _ => rfl

theorem parses_resume : Parses resume := parses_modify fun _ => rfl

/-! ### Nodes -/

theorem parses_readProperties : Parses readProperties := by
  refine .bind parses_peek fun t => ?_
  split
  next =>
    refine .bind parses_take fun _ => .bind parses_peek fun u => ?_
    split
    next => exact .bind parses_take fun _ => .pure _
    next => exact .pure _
  next =>
    refine .bind parses_take fun _ => .bind parses_peek fun u => ?_
    split
    next => exact .bind parses_take fun _ => .pure _
    next => exact .pure _
  next => exact .pure _

theorem parses_expandTag (p : Properties) : Parses (expandTag p) := by
  unfold expandTag
  split
  next => exact .pure _
  next => exact .pure _
  next =>
    refine .bind parses_get fun g => ?_
    split
    next => exact .pure _
    next => exact parses_fail _ _ _ _

/-- The event is yielded, and something else expected. -/
theorem parses_expecting (e : Expectation) (event : Event) :
    Parses (do expect e; return event) := .bind (parses_expect e) fun _ => .pure _

/-- The event is yielded, and what was deferred expected. -/
theorem parses_resuming (event : Event) : Parses (do resume; return event) :=
  .bind parses_resume fun _ => .pure _

theorem parses_node (block indentless : Bool) : Parses (node block indentless) := by
  refine .bind parses_peek fun first => ?_
  split
  next => exact .bind parses_take fun _ => parses_resuming _
  next =>
    refine .bind parses_readProperties fun p => .bind (parses_expandTag p) fun tag =>
      .bind parses_peek fun t => ?_
    dsimp only
    split
    next => exact .bind parses_take fun _ => parses_resuming _
    next => exact parses_expecting _ _
    next => exact parses_expecting _ _
    next =>
      refine .ite (parses_expecting _ _) (.ite (parses_expecting _ _) ?_)
      exact .ite (parses_expecting _ _) (.ite (parses_resuming _) (parses_fail _ _ _ _))

theorem parses_nodeUnless (ends : List TokenKind) (e : Expectation) (m : Mark)
    (block indentless : Bool) : Parses (nodeUnless ends e m block indentless) :=
  .bind parses_peek fun _ => .ite (parses_expecting e _)
    (.bind (parses_defer e) fun _ => parses_node block indentless)

/-- The indicator in front of a node is taken. -/
theorem parses_takeNode (ends : List TokenKind) (e : Expectation) (m : Mark)
    (block indentless : Bool) : Parses (do let _ ← take; nodeUnless ends e m block indentless) :=
  .bind parses_take fun _ => parses_nodeUnless ends e m block indentless

/-! ### Documents -/

theorem parses_directivesFrom (n : Nat) (version : Option Unit) (handles : Entries String) :
    Parses (directivesFrom n version handles) := by
  induction n generalizing version handles with
  | zero => exact .pure _
  | succ n ih =>
    refine .bind parses_peek fun t => ?_
    split
    next =>
      refine .bind parses_take fun _ => ?_
      split
      next =>
        exact .ite (parses_failPlain _ _) (.ite (parses_failPlain _ _) (ih _ _))
      next => exact .ite (parses_failPlain _ _) (ih _ _)
      next => exact ih _ _
    next => exact .pure _

theorem parses_skipDocumentEnds (n : Nat) : Parses (skipDocumentEnds n) := by
  induction n with
  | zero => exact .pure _
  | succ n ih => exact .bind parses_peek fun _ => .ite (.bind parses_take fun _ => ih) (.pure _)

theorem parses_document : Parses document := by
  refine .bind parses_get fun g => .bind (parses_skipDocumentEnds _) fun _ =>
    .bind parses_peek fun t => ?_
  refine .ite (.bind parses_take fun _ => parses_expecting _ _) ?_
  refine .bind (parses_directivesFrom _ _ _) fun handles =>
    .bind (parses_modify fun _ => rfl) fun _ => .bind parses_peek fun u => ?_
  have marked : Parses (do
      let _ ← take
      defer .documentEnd
      expect .documentContent
      return (⟨.documentStart, t.start⟩ : Event)) :=
    .bind parses_take fun _ => .bind (parses_defer _) fun _ => parses_expecting _ _
  exact .ite (.bind (parses_failPlain _ _) fun _ => marked) marked

/-! ### Collections -/

theorem parses_finishCollection (kind : EventKind) : Parses (finishCollection kind) :=
  .bind parses_take fun _ => .bind parses_resume fun _ =>
    .bind (parses_modify fun _ => rfl) fun _ => .pure _

theorem parses_failSince (context problem : String) (at_ : Mark) :
    Parses (do fail context (← lastOpened) problem at_ : Parsing α) :=
  .bind (Parses.bind parses_get fun _ => .pure _) fun _ => parses_fail _ _ _ _

theorem parses_enter : Parses enter := .bind parses_take fun _ => parses_modify fun _ => rfl

theorem parses_blockSequence : Parses blockSequence := by
  refine .bind parses_peek fun t => ?_
  split
  next => exact parses_takeNode _ _ _ _ _
  next => exact parses_finishCollection _
  next => exact parses_failSince _ _ _

theorem parses_indentlessSequence : Parses indentlessSequence :=
  .bind parses_peek fun _ => .ite (parses_takeNode _ _ _ _ _) (parses_resuming _)

theorem parses_blockMapping : Parses blockMapping := by
  refine .bind parses_peek fun t => ?_
  split
  next => exact parses_takeNode _ _ _ _ _
  next => exact parses_finishCollection _
  next => exact parses_failSince _ _ _

theorem parses_blockMappingValue : Parses blockMappingValue :=
  .bind parses_peek fun _ => .ite (parses_takeNode _ _ _ _ _) (parses_expecting _ _)

theorem parses_separator (first : Bool) (context closing : String) :
    Parses (separator first context closing) :=
  .bind parses_peek fun _ => .ite (.pure _)
    (.ite (.bind parses_take fun _ => .pure _) (parses_failSince _ _ _))

theorem parses_flowSequence (first : Bool) : Parses (flowSequence first) :=
  .bind parses_peek fun _ => .ite (parses_finishCollection _) <|
    .bind (parses_separator first _ _) fun _ => .bind parses_peek fun _ =>
      .ite (parses_expecting _ _) <| .ite (parses_finishCollection _) <|
        .bind (parses_defer _) fun _ => parses_node _ _

theorem parses_flowPairKey : Parses flowPairKey :=
  .bind parses_take fun _ => parses_nodeUnless _ _ _ _ _

theorem parses_flowPairValue : Parses flowPairValue :=
  .bind parses_peek fun _ => .ite (parses_takeNode _ _ _ _ _) (parses_expecting _ _)

theorem parses_flowPairEnd : Parses flowPairEnd := .bind parses_peek fun _ => parses_expecting _ _

theorem parses_flowMapping (first : Bool) : Parses (flowMapping first) :=
  .bind parses_peek fun _ => .ite (parses_finishCollection _) <|
    .bind (parses_separator first _ _) fun _ => .bind parses_peek fun _ =>
      .ite (parses_takeNode _ _ _ _ _) <| .ite (parses_finishCollection _) <|
        .bind (parses_defer _) fun _ => parses_node _ _

theorem parses_flowMappingValue : Parses flowMappingValue :=
  .bind parses_peek fun _ => .ite (parses_takeNode _ _ _ _ _) (parses_expecting _ _)

/-! ### Events -/

theorem parses_step : Parses step := by
  refine .bind parses_get fun g => ?_
  split
  next =>
    refine .bind parses_peek fun t => .ite parses_document ?_
    exact .bind (parses_modify fun _ => rfl) fun _ => .bind (parses_defer _) fun _ =>
      parses_expecting _ _
  next => exact parses_document
  next => exact .bind parses_peek fun t => .ite (parses_resuming _) (parses_node _ _)
  next =>
    refine .bind parses_peek fun t => .ite ?_ (parses_expecting _ _)
    exact .bind parses_take fun _ => parses_expecting _ _
  next => exact parses_node _ _
  next => exact .bind parses_enter fun _ => parses_blockSequence
  next => exact parses_blockSequence
  next => exact parses_indentlessSequence
  next => exact .bind parses_enter fun _ => parses_blockMapping
  next => exact parses_blockMapping
  next => exact parses_blockMappingValue
  next => exact .bind parses_enter fun _ => parses_flowSequence _
  next => exact parses_flowSequence _
  next => exact parses_flowPairKey
  next => exact parses_flowPairValue
  next => exact parses_flowPairEnd
  next => exact .bind parses_enter fun _ => parses_flowMapping _
  next => exact parses_flowMapping _
  next => exact parses_flowMappingValue
  next => exact .bind parses_peek fun _ => parses_expecting _ _
  next => exact .pure _

end Grammar

namespace EventStream

/-- What stops the events is a problem to report, or has stopped the tokens. -/
theorem fault_of_readFrom {n : Nat} {g : Grammar} {f : Fault}
    (stopped : (readFrom n g).fault = some f) :
    (∃ r, f = .report r) ∨ g.stream.fault = some f := by
  induction n generalizing g with
  | zero => cases stopped
  | succ n ih =>
    have step := Grammar.parses_step g
    unfold readFrom at stopped
    split at stopped
    next e failed =>
      rw [failed] at step
      exact Option.some.inj stopped ▸ step
    next event g' read =>
      rw [read] at step
      split at stopped
      next => cases stopped
      next => exact (show g'.stream.fault = g.stream.fault from step) ▸ ih stopped

theorem fault_of_ofTokens {stream : TokenStream} {f : Fault}
    (stopped : (ofTokens stream).fault = some f) : (∃ r, f = .report r) ∨ stream.fault = some f :=
  fault_of_readFrom stopped

end EventStream

end JobMatrix.Yaml
