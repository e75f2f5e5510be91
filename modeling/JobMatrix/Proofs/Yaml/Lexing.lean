import JobMatrix.Proofs.Yaml.Scanning

set_option autoImplicit false

/-!
What can stop the token stream of a text. Every step of the lexer goes on at a later place of the
text, so whatever stops one of them is a fault of the text as a whole.
-/

namespace JobMatrix.Yaml

namespace Lexer

variable {text : List Char} {l : Lexer}

/-- The step goes on in the text, or stops with a fault of the text. -/
abbrev Lexes (text : List Char) : Reading Lexer → Prop :=
  Ends (fun l => l.cursor.In text) (ScanFault text)

/-- The step goes on where the lexer is, or stops with a fault of the text. -/
abbrev Stays (text : List Char) (l : Lexer) : Reading Lexer → Prop :=
  Ends (fun l' => l'.cursor = l.cursor) (ScanFault text)

/-! ### Steps that read nothing -/

theorem cursor_unwindFrom (column : Int) (outer : List Int) (l : Lexer) :
    (unwindFrom column outer l).cursor = l.cursor := by
  induction outer generalizing l with
  | nil => rfl
  | cons indent outer ih =>
    unfold unwindFrom
    split
    next => exact ih _
    next => rfl

@[simp] theorem cursor_unwind (l : Lexer) (column : Int) : (l.unwind column).cursor = l.cursor := by
  unfold unwind
  split
  next => exact cursor_unwindFrom column l.indents l
  next => rfl

theorem cursor_of_indentTo {column : Int} {deeper : Lexer} (h : l.indentTo column = some deeper) :
    deeper.cursor = l.cursor := by
  unfold indentTo at h
  split at h
  next => exact Option.some.inj h ▸ rfl
  next => cases h

@[simp] theorem cursor_beginBlock (l : Lexer) (kind : TokenKind) :
    (l.beginBlock kind).cursor = l.cursor := by
  unfold beginBlock
  split
  next deeper begun => exact @cursor_of_indentTo l _ deeper begun
  next => rfl

theorem stays_dropStaleKeys (text : List Char) (l : Lexer) : Stays text l l.dropStaleKeys := by
  simp only [dropStaleKeys]
  split
  next => exact ends_stop
  next => rfl

theorem stays_dropKey (text : List Char) (l : Lexer) : Stays text l l.dropKey := by
  unfold dropKey
  split
  next => exact ends_stop
  next => rfl

theorem stays_noteKey (text : List Char) (l : Lexer) : Stays text l l.noteKey :=
  Ends.ite (fun _ => (stays_dropKey text l).bind fun _ same => same) fun _ => rfl

theorem stays_closed (text : List Char) (l : Lexer) : Stays text l (l.unwind (-1)).dropKey := by
  have closed := stays_dropKey text (l.unwind (-1))
  rwa [Stays, cursor_unwind] at closed

/-- What follows once a block may have begun, as it may outside brackets. -/
theorem lexes_beginning (kind : TokenKind) (problem : String) {next : Lexer → Reading Lexer}
    (later : ∀ l', l'.cursor = l.cursor → Lexes text (next l')) :
    Lexes text (if l.depth = 0 then
      if l.keyAllowed then pure (l.beginBlock kind) >>= next else stopPlain problem l.mark >>= next
    else pure l >>= next) :=
  Ends.ite (fun _ => Ends.ite (fun _ => later _ (cursor_beginBlock l kind)) fun _ => .report _)
    fun _ => later l rfl

/-! ### Tokens -/

theorem in_skipBlank {rest : List Char} (h : rest <:+ text) (depth : Nat) (inComment : Bool)
    (m : Mark) (allowed : Bool) : (skipBlank depth rest inComment m allowed).1.In text := by
  induction rest generalizing inComment m allowed with
  | nil => exact h
  | cons ch rest ih =>
    have later := (List.suffix_cons ch rest).trans h
    unfold skipBlank
    split
    next => exact ih later _ _ _
    next =>
      split
      next => exact ih later _ _ _
      next =>
        split
        next => exact ih later _ _ _
        next =>
          split
          next => exact ih later _ _ _
          next => exact h

theorem in_seek (h : l.cursor.In text) : l.seek.cursor.In text := by
  unfold seek
  refine in_skipBlank (?_ : Cursor.In text _) _ _ _ _
  split
  next => exact h.next
  next => exact h

theorem in_indicator (h : l.cursor.In text) (kind : TokenKind) (size : Nat) :
    (l.indicator kind size).cursor.In text := h.skip size

theorem lexes_endStream (h : l.cursor.In text) : Lexes text l.endStream :=
  (stays_closed text l).bind fun _ same => show Cursor.In text _ from same ▸ h

theorem lexes_readDirectiveLine (h : l.cursor.In text) (percent : l.cursor.head = '%') :
    Lexes text l.readDirectiveLine :=
  (stays_closed text l).bind fun _ same =>
    (scans_directive (same ▸ h) (same ▸ percent)).bind fun _ inside => inside

theorem lexes_documentIndicator (h : l.cursor.In text) (kind : TokenKind) :
    Lexes text (l.documentIndicator kind) :=
  (stays_closed text l).bind fun _ same => Cursor.In.skip (same ▸ h) 3

theorem lexes_openBracket (h : l.cursor.In text) (kind : TokenKind) :
    Lexes text (l.openBracket kind) :=
  (stays_noteKey text l).bind fun _ same => Cursor.In.skip (same ▸ h) 1

theorem lexes_closeBracket (h : l.cursor.In text) (kind : TokenKind) :
    Lexes text (l.closeBracket kind) :=
  (stays_dropKey text l).bind fun _ same => Cursor.In.skip (same ▸ h) 1

/-- An indicator after which no earlier key of its depth is possible. -/
theorem lexes_dropping (h : l.cursor.In text) (kind : TokenKind) (allowed : Bool) :
    Lexes text (do
      let l ← { l with keyAllowed := allowed }.dropKey
      return l.indicator kind 1) :=
  (stays_dropKey text _).bind fun _ same => in_indicator (same ▸ h) kind 1

theorem lexes_blockEntry (h : l.cursor.In text) : Lexes text l.blockEntry :=
  lexes_beginning _ _ fun _ same => lexes_dropping (same ▸ h) .blockEntry true

theorem lexes_explicitKey (h : l.cursor.In text) : Lexes text l.explicitKey :=
  lexes_beginning _ _ fun _ same => lexes_dropping (same ▸ h) .key _

theorem lexes_colon (h : l.cursor.In text) : Lexes text l.colon := by
  unfold colon
  split
  next k _ =>
    refine in_indicator (?_ : Cursor.In text _) .value 1
    split
    next =>
      split
      next begun => exact (cursor_of_indentTo begun).symm ▸ h
      next => exact h
    next => exact h
  next => exact lexes_beginning _ _ fun _ same => lexes_dropping (same ▸ h) .value _

theorem lexes_keyLike (h : l.cursor.In text) {read : Cursor → Reading (Token × Cursor)}
    (reads : ∀ c, c.In text → Scans text (read c)) : Lexes text (l.keyLike read) :=
  (stays_noteKey text l).bind fun _ same =>
    (reads _ (same ▸ h)).bind fun _ inside => inside

theorem lexes_blockScalar (h : l.cursor.In text) : Lexes text l.blockScalar :=
  (stays_dropKey text _).bind fun _ same =>
    (scans_block _ (same ▸ h)).bind fun _ inside => inside

theorem lexes_plainScalar (h : l.cursor.In text) : Lexes text l.plainScalar :=
  (stays_noteKey text l).bind fun _ same => in_readPlain _ _ (same ▸ h)

theorem lexes_readToken (h : l.cursor.In text) : Lexes text l.readToken := by
  simp only [readToken]
  refine Ends.ite (fun _ => lexes_endStream h) fun _ => ?_
  refine Ends.ite (fun directive => lexes_readDirectiveLine h ?_) fun _ => ?_
  · exact beq_iff_eq.mp (Bool.and_eq_true_iff.mp directive).1
  refine Ends.ite (fun _ => lexes_documentIndicator h _) fun _ => ?_
  refine Ends.ite (fun _ => lexes_documentIndicator h _) fun _ => ?_
  refine Ends.ite (fun _ => lexes_openBracket h _) fun _ => ?_
  refine Ends.ite (fun _ => lexes_openBracket h _) fun _ => ?_
  refine Ends.ite (fun _ => lexes_closeBracket h _) fun _ => ?_
  refine Ends.ite (fun _ => lexes_closeBracket h _) fun _ => ?_
  refine Ends.ite (fun _ => lexes_dropping h .flowEntry true) fun _ => ?_
  refine Ends.ite (fun _ => lexes_blockEntry h) fun _ => ?_
  refine Ends.ite (fun _ => lexes_explicitKey h) fun _ => ?_
  refine Ends.ite (fun _ => lexes_colon h) fun _ => ?_
  refine Ends.ite (fun _ => lexes_keyLike h fun _ => scans_anchor) fun _ => ?_
  refine Ends.ite (fun _ => lexes_keyLike h fun _ => scans_tag) fun _ => ?_
  refine Ends.ite (fun _ => lexes_blockScalar h) fun _ => ?_
  refine Ends.ite (fun _ => lexes_keyLike h fun _ => scans_quoted) fun _ => ?_
  exact Ends.ite (fun _ => lexes_plainScalar h) fun _ => .report _

theorem lexes_step (h : l.cursor.In text) : Lexes text l.step :=
  (stays_dropStaleKeys text l.seek).bind fun kept same =>
    lexes_readToken (by simpa [same] using in_seek h)

end Lexer

/-- What stops the tokens of a text is a fault of the text. -/
theorem TokenStream.scanFault_of_readFrom {text : List Char} {n : Nat} {l : Lexer} {f : Fault}
    (h : l.cursor.In text) (stopped : (readFrom n l).fault = some f) : ScanFault text f := by
  induction n generalizing l with
  | zero => cases stopped
  | succ n ih =>
    have step := Lexer.lexes_step h
    unfold readFrom at stopped
    split at stopped
    next e failed =>
      rw [failed] at step
      exact Option.some.inj stopped ▸ step
    next l' read =>
      rw [read] at step
      split at stopped
      next => cases stopped
      next =>
        have kept := Lexer.stays_dropStaleKeys text l'
        split at stopped
        next e failed =>
          rw [failed] at kept
          exact Option.some.inj stopped ▸ kept
        next l'' read =>
          rw [read] at kept
          exact @ih l''.release.2 (show Cursor.In text l''.cursor from kept ▸ step) stopped

theorem TokenStream.scanFault_of_ofText {text : List Char} {f : Fault}
    (stopped : (ofText text).fault = some f) : ScanFault text f :=
  scanFault_of_readFrom (l := { cursor := .start text, released := 1 }) (List.suffix_refl text)
    stopped

end JobMatrix.Yaml
