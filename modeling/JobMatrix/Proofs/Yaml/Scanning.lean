import JobMatrix.Proofs.Outcome
import JobMatrix.Yaml.Token.Stream
import Mathlib.Algebra.Order.Ring.Nat
import Mathlib.Data.List.TakeWhile

set_option autoImplicit false

/-!
Reading tokens, with what can stop it. A reader that starts at a place in a text ends at a later
place of it. Where it does not, it has a problem to report, or it has met one of two things that are
no problem of the form: an escape beyond the last code point, or a version with too many digits.
-/

namespace JobMatrix.Yaml

/-- A cursor in a text. -/
def Cursor.In (text : List Char) (c : Cursor) : Prop := c.rest <:+ text

namespace Cursor

theorem takeFrom_fst (p : Char → Bool) (rest : List Char) (m : Mark) :
    (takeFrom p rest m).1 = rest.takeWhile p ∧ (takeFrom p rest m).2.rest = rest.dropWhile p := by
  induction rest generalizing m with
  | nil => exact ⟨rfl, rfl⟩
  | cons ch rest ih =>
    unfold takeFrom
    rw [List.takeWhile_cons, List.dropWhile_cons]
    split
    next => exact ⟨congrArg _ (ih (m.after ch)).1, (ih (m.after ch)).2⟩
    next => exact ⟨rfl, rfl⟩

theorem take_fst (c : Cursor) (p : Char → Bool) : (c.take p).1 = c.rest.takeWhile p :=
  (takeFrom_fst p c.rest c.mark).1

theorem rest_take (c : Cursor) (p : Char → Bool) : (c.take p).2.rest = c.rest.dropWhile p :=
  (takeFrom_fst p c.rest c.mark).2

/-- A character at the cursor that is not the end of the text is the first of the rest. -/
theorem rest_eq_cons {c : Cursor} {ch : Char} (here : c.head = ch) (inside : ch ≠ '\x00') :
    c.rest = ch :: c.next.rest := by
  unfold Cursor.next
  cases rest : c.rest with
  | nil => simp [head, rest, inside.symm] at here
  | cons first later =>
    obtain rfl : first = ch := by simpa [head, rest] using here
    rfl

end Cursor

namespace Cursor.In

variable {text : List Char} {c : Cursor}

theorem tail (h : c.In text) {rest : List Char} {m : Mark} (shorter : rest <:+ c.rest) :
    Cursor.In text ⟨rest, m⟩ := shorter.trans h

theorem next (h : c.In text) : c.next.In text := by
  unfold Cursor.next
  split
  next => exact h
  next ch rest same => exact h.tail (same ▸ List.suffix_cons ch rest)

theorem skip (h : c.In text) (n : Nat) : (c.skip n).In text := by
  induction n generalizing c with
  | zero => exact h
  | succ n ih => exact ih h.next

theorem take (h : c.In text) (p : Char → Bool) : (c.take p).2.In text := by
  have shorter := List.dropWhile_suffix p (l := c.rest)
  rw [← c.rest_take p] at shorter
  exact shorter.trans h

theorem dropWhile (h : c.In text) (p : Char → Bool) : (c.dropWhile p).In text := h.take p

theorem skipSpaces (h : c.In text) : c.skipSpaces.In text := h.dropWhile _

theorem skipLine (h : c.In text) : c.skipLine.In text := h.take _

theorem takeBreak (h : c.In text) : c.takeBreak.2.In text := by
  unfold Cursor.takeBreak
  split
  next => exact h.next
  next => exact h

end Cursor.In

/-- What the tokens of a text are stopped by. -/
inductive ScanFault (text : List Char) : Fault → Prop where
  | report (r : Report) : ScanFault text (.report r)
  /-- An escape of eight digits that stands for no character. -/
  | codePoint (digits : List Char) (here : '\\' :: 'U' :: digits <:+: text)
      (size : digits.length = 8) (hex : ∀ d ∈ digits, isHexDigit d = true)
      (beyond : 0x110000 ≤ hexValue digits) : ScanFault text (.codePoint (hexValue digits))
  /-- A number in a directive for the version, with more digits than are read. -/
  | version (digits : List Char) (directive : "%YAML".toList <:+: text) (here : digits <:+: text)
      (decimal : ∀ d ∈ digits, d.isDigit = true) (long : Integer.maxDigits < digits.length) :
      ScanFault text (.scalar (.longInteger digits.length))

/-- The reading ends in the text, or with a fault of the text. -/
abbrev Scans {α : Type} (text : List Char) : Reading (α × Cursor) → Prop :=
  Ends (fun r => r.2.In text) (ScanFault text)

section

variable {text : List Char} {c : Cursor}

theorem ends_stop {α : Type} {good : α → Prop} {context problem : String} {since at_ : Mark} :
    Ends good (ScanFault text) (stop context since problem at_) := .report _

/-! ### Properties and directives -/

theorem scans_anchor (h : c.In text) : Scans text (readAnchor c) := by
  simp only [readAnchor]
  split
  next => exact ends_stop
  next => exact h.next.take _

theorem scans_escapes (context : String) (since : Mark) (n : Nat) (h : c.In text) :
    Scans text (readEscapes context since n c) := by
  induction n generalizing c with
  | zero => exact h
  | succ n ih =>
    simp only [readEscapes]
    split
    next => exact h
    next =>
      have digit (ch : Char) : Ends (fun _ : Unit => True) (ScanFault text)
          (if isHexDigit ch then .ok () else stop context since
            ("expected URI escape sequence of 2 hexadecimal numbers, but found " ++ shown ch)
            c.next.mark) := by
        split
        next => trivial
        next => exact ends_stop
      refine (digit _).bind fun _ _ => (digit _).bind fun _ _ => ?_
      exact (ih (h.next.skip 2)).bind fun _ inside => inside

theorem scans_uriFrom (context : String) (since : Mark) (n : Nat) (h : c.In text) :
    Scans text (readUriFrom context since n c) := by
  induction n generalizing c with
  | zero => exact h
  | succ n ih =>
    simp only [readUriFrom]
    split
    next =>
      refine (scans_escapes context since _ h).bind fun r inside => ?_
      split
      next => exact ends_stop
      next => exact (ih inside).bind fun _ inside => inside
    next =>
      split
      next => exact h
      next => exact (ih (h.take _)).bind fun _ inside => inside

theorem scans_uri (what : String) (since : Mark) (h : c.In text) :
    Scans text (readUri what since c) := by
  simp only [readUri]
  split
  next => exact (scans_uriFrom _ since _ h).bind fun _ inside => inside
  next => exact ends_stop

theorem scans_handle (what : String) (since : Mark) (h : c.In text) :
    Scans text (readHandle what since c) := by
  simp only [readHandle]
  split
  next => exact ends_stop
  next =>
    split
    next => exact h.next
    next =>
      split
      next => exact (h.next.take _).next
      next => exact ends_stop

theorem scans_tag (h : c.In text) : Scans text (readTag c) := by
  have finish (r : TokenKind × Cursor) (inside : r.2.In text) : Scans text
      (if endsWord r.2.head then pure ((⟨r.1, c.mark, r.2.mark⟩ : Token), r.2)
        else stop "while scanning a tag" c.mark
          ("expected ' ', but found " ++ shown r.2.head) r.2.mark) :=
    Ends.ite (fun _ => inside) fun _ => ends_stop
  have suffix (handle : String) {c' : Cursor} (inside : c'.In text) :=
    (scans_uri "tag" c.mark inside).bind fun r inside => finish (.tag (some handle) r.1, r.2) inside
  simp only [readTag]
  refine Ends.ite (fun _ => ?_) fun _ => Ends.ite (fun _ => ?_) fun _ =>
    Ends.ite (fun _ => ?_) fun _ => ?_
  · refine (scans_uri _ _ (h.skip 2)).bind fun r inside => Ends.ite (fun _ => ends_stop) fun _ => ?_
    exact finish (_, _) inside.next
  · exact finish (_, _) h.next
  · exact (scans_handle _ _ h).bind fun r inside => suffix r.1 inside
  · exact suffix "!" h.next

theorem scans_versionNumber (since : Mark) (h : c.In text) (directive : "%YAML".toList <:+: text) :
    Scans text (readVersionNumber since c) := by
  simp only [readVersionNumber]
  refine Ends.ite (fun _ => ends_stop) fun _ => Ends.ite (fun long => ?_) fun _ => h.take _
  refine ScanFault.version _ directive ?_ ?_ long
  · rw [c.take_fst]
    exact (List.takeWhile_prefix _).isInfix.trans h.isInfix
  · rw [c.take_fst]
    exact fun d member => List.mem_takeWhile_imp member

theorem scans_version (since : Mark) (h : c.In text) (directive : "%YAML".toList <:+: text) :
    Scans text (readVersion since c) := by
  simp only [readVersion]
  refine (scans_versionNumber since h.skipSpaces directive).bind fun r inside => ?_
  refine Ends.ite (fun _ => ends_stop) fun _ => ?_
  refine (scans_versionNumber since inside.next directive).bind fun r inside => ?_
  exact Ends.ite (fun _ => inside) fun _ => ends_stop

theorem scans_tagDirective (since : Mark) (h : c.In text) :
    Scans text (readTagDirective since c) := by
  simp only [readTagDirective]
  refine (scans_handle _ since h.skipSpaces).bind fun r inside => ?_
  refine Ends.ite (fun _ => ends_stop) fun _ => ?_
  refine (scans_uri _ since inside.skipSpaces).bind fun r inside => ?_
  exact Ends.ite (fun _ => inside) fun _ => ends_stop

theorem ends_skipComment (context : String) (since : Mark) (h : c.In text) :
    Ends (Cursor.In text) (ScanFault text) (skipComment context since c) := by
  have moved : Cursor.In text
      (if c.skipSpaces.head == '#' then c.skipSpaces.skipLine else c.skipSpaces) := by
    split
    next => exact h.skipSpaces.skipLine
    next => exact h.skipSpaces
  exact Ends.ite (fun _ => moved.takeBreak) fun _ => ends_stop

theorem scans_directive (h : c.In text) (percent : c.head = '%') :
    Scans text (readDirective c) := by
  have inside := h.next.take isNameChar
  have finish (d : Directive) (last : Mark) {after : Cursor} (inside : after.In text) : Scans text
      (skipComment "while scanning a directive" c.mark after >>= fun c' =>
        pure ((⟨.directive d, c.mark, last⟩ : Token), c')) :=
    (ends_skipComment _ c.mark inside).bind fun c' inside => inside
  simp only [readDirective]
  refine Ends.ite (fun _ => ends_stop) fun _ => Ends.ite (fun yaml => ?_) fun _ =>
    Ends.ite (fun _ => ?_) fun _ => ?_
  · refine (scans_version c.mark inside ?_).bind fun r inside => ?_
    · -- The percent sign and the name that has been read stand side by side.
      rw [Cursor.take_fst, beq_iff_eq] at yaml
      have name := congrArg String.toList yaml
      rw [String.toList_ofList] at name
      have first : "%YAML".toList <+: c.rest := by
        rw [show "%YAML".toList = '%' :: "YAML".toList by decide,
          c.rest_eq_cons percent (by decide)]
        exact List.cons_prefix_cons.mpr ⟨rfl, name ▸ List.takeWhile_prefix _⟩
      exact first.isInfix.trans h.isInfix
    · refine finish _ _ ?_
      split
      next => exact inside.skipLine
      next => exact inside
  · refine (scans_tagDirective _ inside).bind fun r inside => finish _ _ ?_
    split
    next => exact inside.skipLine
    next => exact inside
  · exact finish _ _ inside.skipLine

/-! ### Plain scalars -/

theorem in_plainBreaks (n : Nat) (h : c.In text) : (plainBreaks n c).2.In text := by
  induction n generalizing c with
  | zero => exact h
  | succ n ih =>
    simp only [plainBreaks]
    split
    next => exact ih h.next
    next =>
      split
      next =>
        split
        next => exact h.takeBreak
        next => exact ih h.takeBreak
      next => exact h

theorem in_plainSpaces (h : c.In text) : (plainSpaces c).2.2.In text := by
  simp only [plainSpaces]
  have spaces := h.take (· == ' ')
  split
  next =>
    split
    next => exact spaces.takeBreak
    next =>
      have breaks :=
        in_plainBreaks ((c.take (· == ' ')).2.takeBreak.2.rest.length + 1) spaces.takeBreak
      split
      next read =>
        rw [read] at breaks
        exact breaks
      next read =>
        rw [read] at breaks
        split
        next => exact breaks
        next =>
          split
          next => exact breaks
          next => exact breaks
  next => exact spaces

theorem in_readPlainFrom (inFlow : Bool) (indent n : Nat) (spaces : List Char) {r : PlainRead}
    (h : r.cursor.In text) : (readPlainFrom inFlow indent n spaces r).cursor.In text := by
  induction n generalizing spaces r with
  | zero => exact h
  | succ n ih =>
    simp only [readPlainFrom]
    have after := in_plainSpaces (h.skip (plainRun inFlow r.cursor.rest))
    split
    next => exact h
    next =>
      split
      next => exact after
      next => exact ih _ after

theorem in_readPlain (inFlow : Bool) (indent : Nat) (h : c.In text) :
    (readPlain inFlow indent c).2.2.In text := in_readPlainFrom inFlow indent _ [] h

/-! ### Quoted scalars -/

theorem scans_quotedBreaks (since : Mark) (n : Nat) (h : c.In text) :
    Scans text (quotedBreaks since n c) := by
  induction n generalizing c with
  | zero => exact h
  | succ n ih =>
    simp only [quotedBreaks]
    refine Ends.ite (fun _ => ends_stop) fun _ => Ends.ite (fun _ => ?_) fun _ => h.dropWhile _
    exact (ih (h.dropWhile _).takeBreak).bind fun _ inside => inside

theorem scans_quotedSpaces (since : Mark) (h : c.In text) : Scans text (quotedSpaces since c) := by
  simp only [quotedSpaces]
  refine Ends.ite (fun _ => ends_stop) fun _ => Ends.ite (fun _ => ?_) fun _ => h.take _
  refine (scans_quotedBreaks since _ (h.take _).takeBreak).bind fun r inside => ?_
  exact Ends.ite (fun _ => inside) fun _ => Ends.ite (fun _ => inside) fun _ => inside

theorem digitOf?_lt {ch : Char} {d : Nat} (value : Integer.digitOf? ch = some d) : d < 16 := by
  unfold Integer.digitOf? at value
  split at value
  next known =>
    obtain rfl := Option.some.inj value
    unfold Text.digitValue? at known
    split at known
    next digit =>
      obtain ⟨-, high⟩ := Bool.and_eq_true_iff.mp digit
      have small : ch.toNat ≤ 57 := of_decide_eq_true high
      have := Option.some.inj known
      omega
    next =>
      obtain ⟨z, found, rfl⟩ := Option.map_eq_some_iff.mp known
      have := List.find?_some found
      simp only [Bool.and_eq_true, decide_eq_true_eq] at this
      omega
  next =>
    split at value
    next letter =>
      obtain rfl := Option.some.inj value
      obtain ⟨-, high⟩ := Bool.and_eq_true_iff.mp letter
      have : ch.toNat ≤ 102 := of_decide_eq_true high
      omega
    next =>
      split at value
      next letter =>
        obtain rfl := Option.some.inj value
        obtain ⟨-, high⟩ := Bool.and_eq_true_iff.mp letter
        have : ch.toNat ≤ 70 := of_decide_eq_true high
        omega
      next => cases value

theorem hexValue_lt (digits : List Char) : hexValue digits < 16 ^ digits.length := by
  have each (ch : Char) : (Integer.digitOf? ch).getD 0 < 16 := by
    cases value : Integer.digitOf? ch with
    | none => decide
    | some d => exact digitOf?_lt value
  induction digits using List.reverseRecOn with
  | nil => decide
  | append_singleton digits d ih =>
    rw [hexValue, List.foldl_append, ← hexValue, List.length_append, List.length_singleton,
      Nat.pow_succ]
    have last := each d
    simp only [List.foldl_cons, List.foldl_nil]
    omega

theorem beyond_of_ofCode? {n : Nat} (none : CodePoint.ofCode? n = none) : 0x110000 ≤ n := by
  unfold CodePoint.ofCode? at none
  split at none
  next => cases none
  next =>
    split at none
    next => cases none
    next beyond => exact Nat.not_lt.mp beyond

/-- Only an escape of eight digits has room for more than the last code point. -/
theorem letter_of_beyond {letter : Char} {digits : List Char}
    (size : escapeSize? letter = some digits.length) (beyond : 0x110000 ≤ hexValue digits) :
    letter = 'U' ∧ digits.length = 8 := by
  have bound := hexValue_lt digits
  generalize digits.length = n at *
  unfold escapeSize? at size
  split at size
  next =>
    obtain rfl := Option.some.inj size
    omega
  next =>
    split at size
    next =>
      obtain rfl := Option.some.inj size
      omega
    next =>
      obtain ⟨here, same⟩ := Option.ite_none_right_eq_some.mp size
      exact ⟨beq_iff_eq.mp here, (Option.some.inj same).symm⟩

theorem scans_escape (since : Mark) (h : c.In text) (before : '\\' :: c.rest <:+ text) :
    Scans text (readEscape since c) := by
  simp only [readEscape]
  split
  next => exact h.next
  next =>
    split
    next size known =>
      refine Ends.ite (fun _ => ends_stop) fun enough => ?_
      split
      next => exact h.next.skip size
      next none =>
        -- All of the characters that are taken are digits.
        have all : (c.next.rest.take size).takeWhile isHexDigit = c.next.rest.take size :=
          (List.takeWhile_prefix _).eq_of_length_le
            ((List.length_take_le size _).trans (Nat.not_lt.mp enough))
        have hex : ∀ d ∈ c.next.rest.take size, isHexDigit d = true := by
          rw [← all]
          exact fun d member => List.mem_takeWhile_imp member
        rw [all] at enough none ⊢
        have long : (c.next.rest.take size).length = size :=
          Nat.le_antisymm (List.length_take_le size _) (Nat.not_lt.mp enough)
        have beyond := beyond_of_ofCode? none
        obtain ⟨letter, eight⟩ := letter_of_beyond (long.symm ▸ known) beyond
        refine .codePoint _ ?_ eight hex beyond
        rw [c.rest_eq_cons letter (by decide)] at before
        have start : '\\' :: 'U' :: c.next.rest.take size <+: '\\' :: 'U' :: c.next.rest := by
          simp [List.take_prefix]
        exact start.isInfix.trans before.isInfix
    next =>
      refine Ends.ite (fun _ => ?_) fun _ => ends_stop
      exact Ends.map (scans_quotedBreaks since _ h.takeBreak)

theorem scans_quotedFrom (double : Bool) (since : Mark) (n : Nat) (h : c.In text) :
    Scans text (readQuotedFrom double since n c) := by
  induction n generalizing c with
  | zero => exact h
  | succ n ih =>
    have more (read : Text) {c' : Cursor} (inside : c'.In text) : Scans text
        (readQuotedFrom double since n c' >>= fun r => pure (read ++ r.1, r.2)) :=
      (ih inside).bind fun _ inside => inside
    simp only [readQuotedFrom]
    refine Ends.ite (fun _ => more _ (h.take _)) fun _ => ?_
    refine Ends.ite (fun _ => more _ (h.skip 2)) fun _ => Ends.ite (fun _ => h) fun _ => ?_
    refine Ends.ite (fun escape => ?_) fun _ => Ends.ite (fun _ => more _ h.next) fun _ => ?_
    · refine (scans_escape since h.next ?_).bind fun r inside => more r.1 inside
      have here : c.head = '\\' := beq_iff_eq.mp (Bool.and_eq_true_iff.mp escape).2
      rw [← c.rest_eq_cons here (by decide)]
      exact h
    · exact (scans_quotedSpaces since h).bind fun r inside => more _ inside

theorem scans_quoted (h : c.In text) : Scans text (readQuoted c) := by
  simp only [readQuoted]
  exact (scans_quotedFrom _ _ _ h.next).bind fun r inside => inside.next

/-! ### Block scalars -/

theorem scans_increment (since : Mark) (h : c.In text) : Scans text (readIncrement since c) := by
  simp only [readIncrement]
  exact Ends.ite (fun _ => ends_stop) fun _ => Ends.ite (fun _ => h.next) fun _ => h

theorem ends_indicators (since : Mark) (h : c.In text) :
    Ends (fun r : Chomping × Option Nat × Cursor => r.2.2.In text) (ScanFault text)
      (readIndicators since c) := by
  have finish (r : Chomping × Option Nat × Cursor) (inside : r.2.2.In text) :
      Ends (fun r : Chomping × Option Nat × Cursor => r.2.2.In text) (ScanFault text)
        (if endsWord r.2.2.head then return (r.1, r.2.1, r.2.2)
        else stop "while scanning a block scalar" since
          ("expected chomping or indentation indicators, but found " ++ shown r.2.2.head)
          r.2.2.mark) :=
    Ends.ite (fun _ => inside) fun _ => ends_stop
  simp only [readIndicators]
  split
  next chomping _ =>
    exact (scans_increment since h.next).bind fun r inside => finish (chomping, r.1, r.2) inside
  next =>
    refine (scans_increment since h).bind fun r inside => ?_
    split
    next c' => exact finish (.clip, none, c') inside
    next increment c' =>
      split
      next chomping _ => exact finish (chomping, some increment, c'.next) inside.next
      next => exact finish (.clip, some increment, c') inside

theorem in_blockIndentation (n widest : Nat) (last : Mark) (h : c.In text) :
    (blockIndentation n widest last c).2.2.2.In text := by
  induction n generalizing widest last c with
  | zero => exact h
  | succ n ih =>
    simp only [blockIndentation]
    split
    next => exact ih _ _ h.next
    next =>
      split
      next => exact ih _ _ h.takeBreak
      next => exact h

theorem in_skipIndent (indent n : Nat) (h : c.In text) : (skipIndent indent n c).In text := by
  induction n generalizing c with
  | zero => exact h
  | succ n ih =>
    unfold skipIndent
    split
    next => exact ih h.next
    next => exact h

theorem in_blockBreaks (indent n : Nat) (last : Mark) (h : c.In text) :
    (blockBreaks indent n last c).2.2.In text := by
  induction n generalizing last c with
  | zero => exact h
  | succ n ih =>
    simp only [blockBreaks]
    have inside := in_skipIndent indent indent h
    split
    next => exact ih _ inside.takeBreak
    next => exact inside

theorem in_readBlockLines (folded : Bool) (indent n : Nat) (breaks : List Char) (last : Mark)
    (h : c.In text) : (readBlockLines folded indent n breaks last c).2.2.2.2.In text := by
  induction n generalizing breaks last c with
  | zero => exact h
  | succ n ih =>
    simp only [readBlockLines]
    have line : c.takeLine.2.takeBreak.2.In text := Cursor.In.takeBreak (h.take _)
    have below := in_blockBreaks indent (c.takeLine.2.takeBreak.2.rest.length + 1)
      c.takeLine.2.takeBreak.2.mark line
    split
    next =>
      split
      next => exact ih _ _ below
      next => exact below
    next => exact h

theorem scans_block (parent : Nat) (h : c.In text) : Scans text (readBlock parent c) := by
  unfold readBlock
  refine (ends_indicators _ h.next).bind fun r inside => ?_
  obtain ⟨chomping, increment, c'⟩ := r
  refine (ends_skipComment _ _ inside).bind fun below start => ?_
  cases increment with
  | none =>
    simp only [ends_pure]
    exact in_readBlockLines _ _ _ _ _ (in_blockIndentation _ _ _ start)
  | some k =>
    simp only [ends_pure]
    exact in_readBlockLines _ _ _ _ _ (in_blockBreaks _ _ _ start)

end

end JobMatrix.Yaml
