import JobMatrix.Proofs.Files.Writing
import JobMatrix.Proofs.Text.Bytes

set_option autoImplicit false

/-!
Paths from the root. Two dots can be taken back to the part before them, as a path is read, or
followed on the way, as the files are walked through. Both lead to the same place where the parts
before two dots lead to a folder, and the current directory is where its own path leads.
-/

namespace JobMatrix

namespace Path

variable {p : Path} {parts : List Text} {part : Text}

theorem normalParts_concat : normalParts (parts ++ [part]) =
    if part = up then (normalParts parts).dropLast else normalParts parts ++ [part] := by
  unfold normalParts
  rw [List.foldl_append]
  by_cases h : part = up <;> simp [h]

theorem mem_normalParts (kept : part ∈ normalParts parts) : part ∈ parts ∧ part ≠ up := by
  induction parts using List.reverseRecOn with
  | nil => cases kept
  | append_singleton front last ih =>
    rw [normalParts_concat] at kept
    split at kept
    next =>
      obtain ⟨before, named⟩ := ih ((List.dropLast_sublist _).subset kept)
      exact ⟨List.mem_append_left _ before, named⟩
    next named =>
      rcases List.mem_append.mp kept with before | same
      · exact ⟨List.mem_append_left _ (ih before).1, (ih before).2⟩
      · obtain rfl := List.mem_singleton.mp same
        exact ⟨List.mem_append_right _ same, named⟩

theorem normalParts_eq_self (named : up ∉ parts) : normalParts parts = parts := by
  induction parts using List.reverseRecOn with
  | nil => rfl
  | append_singleton front last ih =>
    rw [List.mem_append, not_or, List.mem_singleton] at named
    rw [normalParts_concat, if_neg (Ne.symm named.2), ih named.1]

theorem nameable_text_iff :
    p.text.Nameable ↔ Text.Nameable p.root ∧ ∀ part ∈ p.parts, part.Nameable := by
  have dot : Text.Nameable [.char '.'] := by simp [Text.Nameable, CodePoint.isSurrogate]
  have slash : Text.Nameable [.char '/'] := by simp [Text.Nameable, CodePoint.isSurrogate]
  unfold text
  split
  next empty =>
    obtain ⟨root, parts⟩ := Bool.and_eq_true_iff.mp empty
    rw [String.isEmpty_iff] at root
    have none : Text.Nameable (Text.ofString "") := List.forall_mem_nil _
    simp [root, List.isEmpty_iff.mp parts, dot, none]
  next => rw [Text.nameable_append, Text.nameable_joined slash]

/-- The system takes a path of this length. -/
def Short (p : Path) : Prop :=
  ∀ bytes, p.text.systemBytes = .ok bytes → bytes.length ≤ Path.reach

end Path

/-- A fault with another path. -/
def FileFault.showing (shown : Text) : FileFault → FileFault
  | .tooLong _ => .tooLong shown
  | .absent _ => .absent shown
  | .notDirectory _ => .notDirectory shown
  | fault => fault

namespace FileTree

variable {t : FileTree} {p : Path} {shown shown' : Text} {place start reached : List Text}
  {names : List Text}

/-- Where a walk ends does not depend on the path that its faults show. -/
theorem walk_showing : t.walk shown' place names =
    (t.walk shown place names).mapError (·.showing shown') := by
  induction names generalizing place with
  | nil =>
    rw [walk_nil, walk_nil]
    split <;> rfl
  | cons name names ih =>
    rw [walk_cons, walk_cons]
    have first : t.step shown' place name =
        (t.step shown place name).mapError (·.showing shown') := by
      unfold step
      cases t.entry? place with
      | none => rfl
      | some entry =>
        cases entry with
        | folder =>
          by_cases up : (name == Path.up) = true
          · simp [up, Except.mapError]
          · by_cases long : Path.nameReach < Path.nameSize name <;>
              simp [up, long, Except.mapError, FileFault.showing]
        | _ => rfl
    rw [first]
    cases t.step shown place name with
    | error fault => rfl
    | ok reached => exact ih

theorem walk_eq_ok_showing (walked : t.walk shown start names = .ok place) :
    t.walk shown' start names = .ok place := by
  rw [walk_showing, walked]
  rfl

theorem walk_snoc {name : Text} : t.walk shown start (names ++ [name]) =
    t.walk shown start names >>= fun reached => t.walk shown reached [name] := walk_append names [name]

/-- Where a walk ends, there is something. -/
theorem walk_end (walked : t.walk shown start names = .ok place) :
    t.walk shown place [] = .ok place := by
  have whole := walked
  rw [← names.append_nil, walk_append, walked] at whole
  exact whole

theorem walk_name {name : Text} (named : name ≠ Path.up)
    (walked : t.walk shown start [name] = .ok place) : place = start ++ [name] := by
  rw [walk_cons] at walked
  obtain ⟨reached, stepped, ended⟩ := bind_eq_ok.mp walked
  have arrived : reached = start ++ [name] := by
    unfold step at stepped
    split at stepped
    next => cases stepped
    next =>
      rw [if_neg (by simpa using named)] at stepped
      split at stepped
      next => cases stepped
      next => exact (Except.ok.inj stepped).symm
    next => cases stepped
  rw [walk_nil] at ended
  split at ended
  next => rw [← arrived, Except.ok.inj ended]
  next => cases ended

/-- A walk by names only goes through the place above its end. -/
theorem walk_dropLast (named : Path.up ∉ names) (walked : t.walk shown [] names = .ok place) :
    t.walk shown [] names.dropLast = .ok place.dropLast := by
  cases names using List.reverseRecOn with
  | nil =>
    obtain rfl := Except.ok.inj walked
    exact walked
  | append_singleton front last =>
    rw [walk_snoc] at walked
    obtain ⟨before, walkedFront, walkedLast⟩ := bind_eq_ok.mp walked
    rw [List.mem_append, not_or, List.mem_singleton] at named
    rw [walk_name (Ne.symm named.2) walkedLast, List.dropLast_concat, List.dropLast_concat, walkedFront]

theorem walk_up (folder : t.entry? start = some .folder) :
    t.walk shown start [Path.up] = t.walk shown start.dropLast [] := by
  rw [walk_cons, step, folder]
  rfl

/-- Names are not taken for two dots. -/
theorem up_not_mem_of_mapM {parts : List Text} (settles : parts.mapM Text.settled = .ok names)
    (named : Path.up ∉ parts) : Path.up ∉ names := by
  intro member
  obtain ⟨part, here, same⟩ := exists_mem_left_of_forall₂ (mapM_eq_ok.mp settles) member
  exact named (Text.settled_eq_up_iff.mp same ▸ here)

/-- Taking two dots back to the part before them, and following them, lead to the same place where
all two dots are in folders. -/
theorem walk_normalParts {base parts front : List Text} (named : Path.up ∉ base)
    (settles : base.mapM Text.settled = .ok front) (begins : t.walk shown [] front = .ok start)
    (climbs : ∀ before after, parts = before ++ Path.up :: after → ∃ names place,
      before.mapM Text.settled = .ok names ∧ t.walk shown start names = .ok place ∧
        t.entry? place = some .folder)
    (looked : parts.mapM Text.settled = .ok names) :
    ∃ full, (Path.normalParts (base ++ parts)).mapM Text.settled = .ok full ∧
      t.walk shown [] full = t.walk shown start names := by
  induction parts using List.reverseRecOn generalizing names with
  | nil =>
    obtain rfl := pure_eq_ok.mp looked
    rw [List.append_nil, Path.normalParts_eq_self named]
    exact ⟨front, settles, begins.trans (walk_end begins).symm⟩
  | append_singleton parts part ih =>
    obtain ⟨first, name, lookedFirst, lookedName, rfl⟩ := mapM_concat_eq_ok.mp looked
    obtain ⟨full, settled, same⟩ := ih (fun before after split =>
      climbs before (after ++ [part]) (by rw [split, List.append_assoc, List.cons_append])) lookedFirst
    rw [← List.append_assoc, Path.normalParts_concat]
    by_cases up : part = Path.up
    · subst up
      obtain rfl := Except.ok.inj ((Text.settled_eq_up_iff.mpr rfl).symm.trans lookedName)
      obtain ⟨names, place, again, reached, folder⟩ := climbs parts [] rfl
      obtain rfl := Except.ok.inj (again.symm.trans lookedFirst)
      have above := walk_dropLast
        (up_not_mem_of_mapM settled fun kept => (Path.mem_normalParts kept).2 rfl)
        (same.trans reached)
      refine ⟨full.dropLast, by rw [if_pos rfl, mapM_dropLast settled], ?_⟩
      rw [above, walk_snoc, reached, ok_bind, walk_up folder, walk_end above]
    · refine ⟨full ++ [name], ?_, by rw [walk_snoc, walk_snoc, same]⟩
      rw [if_neg up]
      exact mapM_concat_eq_ok.mpr ⟨full, name, settled, lookedName, rfl⟩

/-! ### Paths -/

/-- The path of the current directory leads there, by names only. -/
structure Standing (t : FileTree) : Prop where
  named : Path.up ∉ t.cwd
  here : ∀ shown, t.locate shown ⟨"/", t.cwd⟩ = .ok t.cwd

/-- Two dots stand in a path only behind the path of a folder. -/
def ClimbsFolders (t : FileTree) (p : Path) : Prop :=
  ∀ before after, p.parts = before ++ Path.up :: after →
    t.pathIsFolder { p with parts := before } = .ok true

theorem namedParts_of_short (nameable : p.text.Nameable) (short : p.Short) :
    namedParts shown p = p.parts.mapM Text.settled := by
  obtain ⟨bytes, handed⟩ := Text.exists_systemBytes_iff.mpr nameable
  unfold namedParts
  rw [handed, ok_bind, if_neg (Nat.not_lt.mpr (short bytes handed))]

theorem locate_of_pathIsFolder (folder : t.pathIsFolder p = .ok true) :
    ∃ place, t.locate p.text p = .ok place ∧ t.entry? place = some .folder := by
  obtain ⟨entry, looked, isFolder⟩ := bind_eq_ok.mp folder
  unfold lookup at looked
  split at looked
  next place located =>
    refine ⟨place, located, ?_⟩
    obtain rfl := Except.ok.inj looked
    split at isFolder
    next same => exact same
    next => cases isFolder
  next => cases looked
  next =>
    obtain rfl := Except.ok.inj looked
    cases isFolder

theorem exists_mapM_settled_iff {parts : List Text} :
    (∃ names, parts.mapM Text.settled = .ok names) ↔ ∀ part ∈ parts, part.Nameable := by
  simp only [exists_mapM_eq_ok_iff, Text.exists_settled_iff]

theorem Standing.nameable (standing : t.Standing) : ∀ part ∈ t.cwd, part.Nameable := by
  obtain ⟨names, named, -⟩ := locate_eq_ok.mp (standing.here [])
  exact exists_mapM_settled_iff.mp ⟨names, mapM_of_namedParts named⟩

theorem nameable_resolve (standing : t.Standing) (nameable : p.text.Nameable) :
    (p.resolve t.cwd).text.Nameable := by
  obtain ⟨-, parts⟩ := Path.nameable_text_iff.mp nameable
  have slash : Text.Nameable (Text.ofString "/") := by
    simp [Text.Nameable, Text.ofString, Text.ofChars, CodePoint.isSurrogate]
  refine Path.nameable_text_iff.mpr ⟨slash, fun part member => ?_⟩
  obtain ⟨here, -⟩ := Path.mem_normalParts member
  split at here
  next => exact parts part here
  next =>
    rcases List.mem_append.mp here with above | below
    · exact standing.nameable part above
    · exact parts part below

/-- A path and the path from the root that it stands for lead to the same place. -/
theorem locate_resolve (standing : t.Standing) (climbs : t.ClimbsFolders p)
    (nameable : p.text.Nameable) (short : p.Short) (shortFull : (p.resolve t.cwd).Short) :
    t.locate shown (p.resolve t.cwd) = t.locate shown p := by
  obtain ⟨-, parts⟩ := Path.nameable_text_iff.mp nameable
  obtain ⟨names, looked⟩ := exists_mapM_settled_iff.mpr parts
  have folders : ∀ before after, p.parts = before ++ Path.up :: after → ∃ names place,
      before.mapM Text.settled = .ok names ∧ t.walk shown (t.origin p) names = .ok place ∧
        t.entry? place = some .folder := by
    intro before after split
    obtain ⟨place, located, folder⟩ := locate_of_pathIsFolder (climbs before after split)
    obtain ⟨names, named, walked⟩ := locate_eq_ok.mp located
    exact ⟨names, place, mapM_of_namedParts named, walk_eq_ok_showing walked, folder⟩
  rw [locate_eq, locate_eq, namedParts_of_short nameable short, looked,
    namedParts_of_short (nameable_resolve standing nameable) shortFull]
  have fromRoot : t.origin (p.resolve t.cwd) = [] := rfl
  rw [fromRoot, Path.resolve]
  cases absolute : p.isAbsolute with
  | true =>
    have start : t.origin p = [] := by rw [origin, absolute]; rfl
    rw [start] at folders ⊢
    obtain ⟨full, settled, same⟩ := walk_normalParts (List.not_mem_nil) rfl rfl folders looked
    rw [List.nil_append] at settled
    rw [if_pos rfl, settled]
    exact same
  | false =>
    have start : t.origin p = t.cwd := by rw [origin, absolute]; rfl
    rw [start] at folders ⊢
    obtain ⟨front, named, begins⟩ := locate_eq_ok.mp (standing.here shown)
    obtain ⟨full, settled, same⟩ :=
      walk_normalParts standing.named (mapM_of_namedParts named) begins folders looked
    rw [if_neg Bool.false_ne_true, settled]
    exact same

theorem nameable_of_locate (located : t.locate shown p = .ok place) : p.text.Nameable := by
  obtain ⟨bytes, handed, -⟩ := bind_eq_ok.mp located
  exact Text.exists_systemBytes_iff.mp ⟨bytes, handed⟩

theorem locate_showing (nameable : p.text.Nameable) (short : p.Short) :
    t.locate shown' p = (t.locate shown p).mapError (·.showing shown') := by
  obtain ⟨-, parts⟩ := Path.nameable_text_iff.mp nameable
  obtain ⟨names, looked⟩ := exists_mapM_settled_iff.mpr parts
  rw [locate_eq, locate_eq, namedParts_of_short nameable short, namedParts_of_short nameable short,
    looked, ok_bind, ok_bind, walk_showing]

theorem lookup_resolve (standing : t.Standing) (climbs : t.ClimbsFolders p)
    (nameable : p.text.Nameable) (short : p.Short) (shortFull : (p.resolve t.cwd).Short) :
    t.lookup (p.resolve t.cwd) =
      (t.lookup p).mapError (·.showing (p.resolve t.cwd).text) := by
  rw [lookup, lookup, locate_resolve standing climbs nameable short shortFull,
    @locate_showing _ _ p.text _ nameable short]
  cases t.locate p.text p with
  | ok place => rfl
  | error fault => cases fault <;> rfl

end FileTree

end JobMatrix
