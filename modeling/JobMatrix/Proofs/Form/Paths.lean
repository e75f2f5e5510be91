import JobMatrix.Proofs.Form.Steps

set_option autoImplicit false

/-!
Paths on lines of their own. The first step that keeps files lists its paths in one text. A blank line
gives no path, so that a line end after a line end makes no difference, be it the second half of a
pair: between two paths anything blank can stand that holds a line end, and the paths are read as they
were written.
-/

namespace JobMatrix

namespace Text

theorem trim_cons_blank {c : CodePoint} (blank : isBlank c = true) (t : Text) :
    trim (c :: t) = trim t := by
  simp only [trim, List.dropWhile_cons, blank, if_true]

theorem trim_concat_blank {c : CodePoint} (blank : isBlank c = true) (t : Text) :
    trim (t ++ [c]) = trim t := by
  rw [trim, trim, List.dropWhile_append]
  split
  next empty =>
    have none : t.dropWhile isBlank = [] := List.isEmpty_iff.mp empty
    simp [none, blank]
  next => simp [blank]

theorem Trimmed.trim_eq {t : Text} (trimmed : Trimmed t) : trim t = t := by
  have nothing : Blanks [] := List.forall_mem_nil _
  simpa using trim_padded nothing nothing trimmed

/-- Only a carriage return with a line feed behind it is read together with what comes next. -/
theorem linesFrom_cons {c : CodePoint} {rest : Text} (line : Text)
    (unpaired : ∀ later, c = .char '\r' → rest ≠ .char '\n' :: later) :
    linesFrom line (c :: rest) =
      if isLineEnd c then line.reverse :: linesFrom [] rest else linesFrom (c :: line) rest := by
  rw [linesFrom]
  exact unpaired

end Text

namespace StepForm

open Text

/-- The path on a line, if there is one. -/
def pathOn (line : Text) : List Text := [trim line].filter fun path => !path.isEmpty

/-- The paths in what is left of a text, where `line` is what the current line has so far, reversed. -/
def pathsFrom (line t : Text) : List Text :=
  ((linesFrom line t).map trim).filter fun path => !path.isEmpty

theorem pathLines_eq (t : Text) : pathLines t = pathsFrom [] t := rfl

/-! ### One character -/

theorem pathOn_cons_blank {c : CodePoint} (blank : isBlank c = true) (line : Text) :
    pathOn (c :: line) = pathOn line := by
  rw [pathOn, pathOn, trim_cons_blank blank]

theorem pathOn_concat_blank {c : CodePoint} (blank : isBlank c = true) (line : Text) :
    pathOn (line ++ [c]) = pathOn line := by
  rw [pathOn, pathOn, trim_concat_blank blank]

theorem pathsFrom_nil (line : Text) : pathsFrom line [] = pathOn line.reverse := by
  cases line with
  | nil => rfl
  | cons c line => rfl

theorem pathsFrom_unpaired {c : CodePoint} {rest : Text} (line : Text) (ends : isLineEnd c = true)
    (unpaired : ∀ later, c = .char '\r' → rest ≠ .char '\n' :: later) :
    pathsFrom line (c :: rest) = pathOn line.reverse ++ pathsFrom [] rest := by
  rw [pathsFrom, linesFrom_cons line unpaired, if_pos ends, List.map_cons, pathOn, pathsFrom,
    ← List.filter_append, List.singleton_append]

/-- A line end ends the path before it. The line feed of a pair stands for a blank line then. -/
theorem pathsFrom_lineEnd {c : CodePoint} (line rest : Text) (ends : isLineEnd c = true) :
    pathsFrom line (c :: rest) = pathOn line.reverse ++ pathsFrom [] rest := by
  by_cases paired : c = .char '\r' ∧ ∃ later, rest = .char '\n' :: later
  · obtain ⟨rfl, later, rfl⟩ := paired
    have blankLine : pathsFrom [] (.char '\n' :: later) = pathsFrom [] later :=
      pathsFrom_unpaired [] (by decide) (by simp)
    rw [blankLine, pathsFrom, linesFrom, List.map_cons, pathOn, pathsFrom, ← List.filter_append,
      List.singleton_append]
  · apply pathsFrom_unpaired line ends
    intro later same spelled
    exact paired ⟨same, later, spelled⟩

theorem pathsFrom_other {c : CodePoint} (line rest : Text) (other : isLineEnd c = false) :
    pathsFrom line (c :: rest) = pathsFrom (c :: line) rest := by
  have unpaired : ∀ later, c = .char '\r' → rest ≠ .char '\n' :: later := by
    rintro later rfl
    exact absurd other (by decide)
  simp only [pathsFrom, linesFrom_cons line unpaired, other, Bool.false_eq_true, if_false]

/-! ### Texts -/

/-- The paths before a line end and after it do not depend on each other. -/
theorem pathsFrom_append_lineEnd {c : CodePoint} (ends : isLineEnd c = true) (line front rest : Text) :
    pathsFrom line (front ++ c :: rest) = pathsFrom line front ++ pathsFrom [] rest := by
  induction front generalizing line with
  | nil => rw [List.nil_append, pathsFrom_lineEnd line rest ends, pathsFrom_nil]
  | cons d front ih =>
    rw [List.cons_append]
    cases other : isLineEnd d with
    | true =>
      rw [pathsFrom_lineEnd line _ other, pathsFrom_lineEnd line _ other, ih, List.append_assoc]
    | false => rw [pathsFrom_other line _ other, pathsFrom_other line _ other, ih]

theorem pathsFrom_concat_blank {c : CodePoint} (blank : isBlank c = true) (line t : Text) :
    pathsFrom line (t ++ [c]) = pathsFrom line t := by
  cases ends : isLineEnd c with
  | true => rw [pathsFrom_append_lineEnd ends, pathsFrom_nil]; exact List.append_nil _
  | false =>
    induction t generalizing line with
    | nil =>
      rw [List.nil_append, pathsFrom_other line [] ends, pathsFrom_nil, pathsFrom_nil,
        List.reverse_cons, pathOn_concat_blank blank]
    | cons d t ih =>
      rw [List.cons_append]
      cases other : isLineEnd d with
      | true => rw [pathsFrom_lineEnd line _ other, pathsFrom_lineEnd line _ other, ih]
      | false => rw [pathsFrom_other line _ other, pathsFrom_other line _ other, ih]

/-- A blank at the very start of the current line makes no difference. -/
theorem pathsFrom_blank_behind {c : CodePoint} (blank : isBlank c = true) (line t : Text) :
    pathsFrom (line ++ [c]) t = pathsFrom line t := by
  have front (line : Text) : pathOn (line ++ [c]).reverse = pathOn line.reverse := by
    rw [List.reverse_concat, pathOn_cons_blank blank]
  induction t generalizing line with
  | nil => rw [pathsFrom_nil, pathsFrom_nil, front]
  | cons d t ih =>
    cases other : isLineEnd d with
    | true => rw [pathsFrom_lineEnd _ t other, pathsFrom_lineEnd _ t other, front]
    | false => rw [pathsFrom_other _ t other, pathsFrom_other _ t other, ← List.cons_append, ih]

theorem pathsFrom_cons_blank {c : CodePoint} (blank : isBlank c = true) (t : Text) :
    pathsFrom [] (c :: t) = pathsFrom [] t := by
  cases ends : isLineEnd c with
  | true => exact pathsFrom_lineEnd [] t ends
  | false =>
    rw [pathsFrom_other [] t ends]
    exact pathsFrom_blank_behind blank [] t

theorem pathLines_blanks_append {b : Text} (blanks : Blanks b) (t : Text) :
    pathLines (b ++ t) = pathLines t := by
  induction b with
  | nil => rfl
  | cons c b ih =>
    obtain ⟨blank, blanks⟩ := List.forall_mem_cons.mp blanks
    rw [List.cons_append, pathLines_eq, pathsFrom_cons_blank blank]
    exact ih blanks

theorem pathLines_append_blanks {b : Text} (blanks : Blanks b) (t : Text) :
    pathLines (t ++ b) = pathLines t := by
  induction b generalizing t with
  | nil => rw [List.append_nil]
  | cons c b ih =>
    obtain ⟨blank, blanks⟩ := List.forall_mem_cons.mp blanks
    rw [List.append_cons, ih blanks, pathLines_eq, pathsFrom_concat_blank blank, ← pathLines_eq]

/-! ### Paths -/

/-- A path that can stand on a line of its own: it has a blank at neither end and no line end. -/
structure IsPath (path : Text) : Prop where
  inhabited : path ≠ []
  trimmed : Trimmed path
  oneLine : ∀ c ∈ path, isLineEnd c = false

theorem pathsFrom_oneLine {t : Text} (oneLine : ∀ c ∈ t, isLineEnd c = false) (line : Text) :
    pathsFrom line t = pathOn (line.reverse ++ t) := by
  induction t generalizing line with
  | nil => rw [pathsFrom_nil, List.append_nil]
  | cons c t ih =>
    obtain ⟨other, oneLine⟩ := List.forall_mem_cons.mp oneLine
    rw [pathsFrom_other line t other, ih oneLine, List.reverse_cons, ← List.append_cons]

theorem IsPath.pathLines_eq {path : Text} (isPath : IsPath path) : pathLines path = [path] := by
  have same : pathLines path = pathOn path := pathsFrom_oneLine isPath.oneLine []
  rw [same, pathOn, isPath.trimmed.trim_eq]
  simp [isPath.inhabited]

/-- `Lists t paths`: from the first path on, the text has the paths on lines of their own. What stands
behind a path is blank, and holds a line end before the next one. -/
inductive Lists : Text → List Text → Prop
  | nothing : Lists [] []
  | last {path after : Text} : IsPath path → Blanks after → Lists (path ++ after) [path]
  | path {path between rest : Text} {paths : List Text} : IsPath path → Blanks between →
      (∃ c ∈ between, isLineEnd c = true) → Lists rest paths →
      Lists (path ++ between ++ rest) (path :: paths)

theorem Lists.pathLines_eq {t : Text} {paths : List Text} (lists : Lists t paths) :
    pathLines t = paths := by
  induction lists with
  | nothing => rfl
  | last isPath after => rw [pathLines_append_blanks after, isPath.pathLines_eq]
  | @path path between rest paths isPath blanks ended _ ih =>
    obtain ⟨c, member, ends⟩ := ended
    -- cut at one line end, the blanks belong to the lines on both sides
    obtain ⟨before, after, rfl⟩ := List.append_of_mem member
    obtain ⟨front, back⟩ := List.forall_mem_append.mp blanks
    have cut : path ++ (before ++ c :: after) ++ rest = path ++ before ++ c :: (after ++ rest) := by
      simp only [List.append_assoc, List.cons_append]
    have first : pathLines (path ++ before) = [path] := by
      rw [pathLines_append_blanks front, isPath.pathLines_eq]
    have later : pathLines (after ++ rest) = paths := by
      rw [pathLines_blanks_append (List.forall_mem_cons.mp back).2, ih]
    calc pathLines (path ++ (before ++ c :: after) ++ rest)
        = pathLines (path ++ before) ++ pathLines (after ++ rest) := by
          rw [cut]
          exact pathsFrom_append_lineEnd ends [] _ _
      _ = path :: paths := by rw [first, later, List.singleton_append]

/-! ### Steps -/

/-- The step uses the action that keeps files, in some version or in none. -/
def UsesCache (s : StepForm) : Prop :=
  ∃ version : Text, s.uses = some (Text.ofString cacheAction ++ version) ∧
    ∀ c ∈ version.head?, c = .char '@'

theorem takeWhile_eq_cacheAction_iff {action : Text} :
    action.takeWhile (· != .char '@') = Text.ofString cacheAction ↔
      ∃ version : Text, action = Text.ofString cacheAction ++ version ∧
        ∀ c ∈ version.head?, c = .char '@' := by
  have unversioned : ∀ c ∈ Text.ofString cacheAction, (c != .char '@') = true := by decide
  constructor
  · intro cut
    refine ⟨action.dropWhile (· != .char '@'), ?_, ?_⟩
    · rw [← cut, List.takeWhile_append_dropWhile]
    · intro c first
      have stopped := List.head?_dropWhile_not (· != CodePoint.char '@') action
      rw [Option.mem_def.mp first] at stopped
      simpa using stopped
  · rintro ⟨version, rfl, first⟩
    rw [List.takeWhile_append_of_pos unversioned]
    cases version with
    | nil => rw [List.takeWhile_nil, List.append_nil]
    | cons c version =>
      obtain rfl := first c rfl
      rw [List.takeWhile_cons_of_neg (by decide), List.append_nil]

theorem isCache_iff {s : StepForm} : s.isCache = true ↔ s.UsesCache := by
  unfold isCache UsesCache given?
  cases s.uses with
  | none => simp
  | some action =>
    cases action with
    | nil => simp [cacheAction, Text.ofString, Text.ofChars]
    | cons c action =>
      simp only [Option.bind_some, List.isEmpty_cons, Bool.false_eq_true, if_false, beq_iff_eq,
        takeWhile_eq_cacheAction_iff, Option.some.injEq]

instance (s : StepForm) : Decidable s.UsesCache := decidable_of_iff _ isCache_iff

/-- The steps in front of the first one that keeps files do not count, nor do those behind it. -/
theorem cacheOf_append_cons {before after : List StepForm} {s : StepForm}
    (others : ∀ u ∈ before, ¬ u.UsesCache) (uses : s.UsesCache) :
    cacheOf (before ++ s :: after) = s.cacheSpec.map some := by
  have first : (before ++ s :: after).find? isCache = some s := by
    rw [List.find?_append, List.find?_cons_of_pos (isCache_iff.mpr uses), List.find?_eq_none.mpr]
    · rfl
    · intro u member
      exact mt isCache_iff.mp (others u member)
  rw [cacheOf, first]
  rfl

theorem cacheOf_eq_none_iff {forms : List StepForm} :
    cacheOf forms = .ok none ↔ ∀ s ∈ forms, ¬ s.UsesCache := by
  unfold cacheOf
  cases found : forms.find? isCache with
  | none =>
    apply iff_of_true rfl
    intro s member
    exact mt isCache_iff.mpr (List.find?_eq_none.mp found s member)
  | some s =>
    apply iff_of_false
    · intro nothing
      obtain ⟨spec, -, none⟩ := map_eq_ok.mp (show s.cacheSpec.map some = .ok none from nothing)
      cases none
    · intro others
      exact others s (List.mem_of_find?_eq_some found)
        (isCache_iff.mp (List.find?_some found))

/-- The key that a step asks for can be told unless it is an integer too long to print. -/
theorem exists_keyTemplate_iff {s : StepForm} :
    (∃ key, s.keyTemplate = .ok key) ↔ ∀ v ∈ s.inputs.get? "key", v.Printable := by
  unfold keyTemplate
  split
  next absent => exact iff_of_true ⟨.null, rfl⟩ (by simp [absent])
  next null =>
    apply iff_of_true ⟨.null, rfl⟩
    intro v found
    obtain rfl := Option.some.inj (null.symm.trans found)
    rfl
  next v _ found =>
    have asked : (∀ u ∈ s.inputs.get? "key", u.Printable) ↔ v.Printable := by simp [found]
    rw [asked, Value.printable_iff]
    constructor
    · rintro ⟨key, told⟩
      obtain ⟨t, shown, -⟩ := bind_eq_ok.mp told
      exact ⟨t, shown⟩
    · rintro ⟨t, shown⟩
      exact ⟨.text t, bind_eq_ok.mpr ⟨t, shown, rfl⟩⟩

theorem cacheSpec_of_lists {s : StepForm} {indent listing : Text} {paths : List Text}
    (given : s.inputs.get? "path" = some (.text (indent ++ listing))) (blanks : Blanks indent)
    (lists : Lists listing paths) :
    s.cacheSpec = s.keyTemplate.map fun key => ⟨paths.map .text, key⟩ := by
  have read : pathLines (indent ++ listing) = paths := by
    rw [pathLines_blanks_append blanks, lists.pathLines_eq]
  rw [cacheSpec_eq, given, ← read]
  rfl

/-- Nothing is kept exactly when no step uses the action that keeps files. Else the first such step
counts alone, and paths on lines of their own, with blanks and blank lines around them, are all kept,
as they are written and in their order. -/
theorem cacheOf_recovers_paths (forms : List StepForm) :
    (cacheOf forms = .ok none ↔ ∀ s ∈ forms, ¬ s.UsesCache) ∧
    ∀ before s after, forms = before ++ s :: after → (∀ u ∈ before, ¬ u.UsesCache) → s.UsesCache →
      cacheOf forms = s.cacheSpec.map some ∧
      ∀ paths indent listing, s.inputs.get? "path" = some (.text (indent ++ listing)) →
        Blanks indent → Lists listing paths →
        cacheOf forms = s.keyTemplate.map (fun key => some ⟨paths.map .text, key⟩) ∧
        ((∃ key, s.keyTemplate = .ok key) ↔ ∀ v ∈ s.inputs.get? "key", v.Printable) := by
  refine ⟨cacheOf_eq_none_iff, ?_⟩
  rintro before s after rfl others uses
  have first : cacheOf (before ++ s :: after) = s.cacheSpec.map some :=
    cacheOf_append_cons others uses
  refine ⟨first, ?_⟩
  intro paths indent listing given blanks lists
  refine ⟨?_, exists_keyTemplate_iff⟩
  rw [first, cacheSpec_of_lists given blanks lists]
  cases s.keyTemplate <;> rfl

/-- A step that keeps two files, with blanks of many kinds around their names. -/
def padded : StepForm where
  uses := some "actions/cache@v4"
  inputs := [("path", .text "\t.cache/a b \r\n\n  \u2028 b\x0b"), ("key", .text "k")]

theorem cacheOf_padded_paths :
    cacheOf [{ uses := some "actions/checkout@v4" }, padded, { uses := some "actions/cache" }] =
      .ok (some ⟨[.text ".cache/a b", .text "b"], .text "k"⟩) := by
  have first : IsPath ".cache/a b" := ⟨by decide, ⟨by decide, by decide⟩, by decide⟩
  have second : IsPath "b" := ⟨by decide, ⟨by decide, by decide⟩, by decide⟩
  have lists : Lists (".cache/a b" ++ " \r\n\n  \u2028 " ++ ("b" ++ "\x0b" : Text))
      [".cache/a b", "b"] :=
    .path first (by decide) ⟨.char '\n', by decide, by decide⟩ (.last second (by decide))
  have kept := (cacheOf_recovers_paths _).2 [{ uses := some "actions/checkout@v4" }] padded
    [{ uses := some "actions/cache" }] rfl (by decide) (by decide)
  have read := (kept.2 [".cache/a b", "b"] "\t" _ rfl (by decide) lists).1
  exact read.trans rfl

end StepForm

end JobMatrix
