import JobMatrix.Files.Tree
import JobMatrix.Proofs.Entries
import JobMatrix.Proofs.Outcome

set_option autoImplicit false

/-!
Writing a file. What is put at a place that is no folder is found there afterwards, and nothing else
changes: every walk that led somewhere still leads there, as it goes through folders only. So a path
that could be written to leads to what was written.
-/

namespace JobMatrix

namespace FileTree

variable {t : FileTree} {path shown : Text} {p : Path} {place other start : List Text}
  {e : FileEntry}

/-- One step of a walk: from a folder to the folder above, or to a name in it. -/
def step (t : FileTree) (path : Text) (place : List Text) (part : Text) :
    Except FileFault (List Text) :=
  match t.entry? place with
  | none => .error (.absent path)
  | some .folder =>
    if part == Path.up then .ok place.dropLast
    else if Path.nameReach < Path.nameSize part then .error (.tooLong path)
    else .ok (place ++ [part])
  | some _ => .error (.notDirectory path)

@[simp] theorem walk_nil : t.walk path place [] =
    if (t.entry? place).isSome then .ok place else .error (.absent path) := by
  rw [walk]

theorem walk_cons (part : Text) (parts : List Text) : t.walk path place (part :: parts) =
    t.step path place part >>= fun reached => t.walk path reached parts := by
  rw [walk, step]
  cases t.entry? place with
  | none => rfl
  | some entry =>
    cases entry with
    | folder =>
      by_cases up : (part == Path.up) = true
      · simp [up]
      · by_cases long : Path.nameReach < Path.nameSize part <;> simp [up, long]
    | file content => rfl
    | script s => rfl
    | sink => rfl

theorem step_absent {part : Text} (nothing : t.entry? place = none) :
    t.step path place part = .error (.absent path) := by
  rw [step, nothing]

theorem walk_append (first second : List Text) :
    t.walk path place (first ++ second) =
      t.walk path place first >>= fun reached => t.walk path reached second := by
  induction first generalizing place with
  | nil =>
    rw [List.nil_append, walk_nil]
    split
    next => rfl
    next nothing =>
      have absent : t.entry? place = none := by simpa using nothing
      cases second with
      | nil => simp [absent]
      | cons part parts => rw [walk_cons, step_absent absent]; rfl
  | cons part first ih =>
    rw [List.cons_append, walk_cons, walk_cons]
    cases t.step path place part with
    | error fault => rfl
    | ok reached => exact ih

/-- The parts of a path as the files are looked through with them. -/
def namedParts (shown : Text) (p : Path) : Except FileFault (List Text) := do
  let size := (← p.text.systemBytes).length
  if Path.reach < size then throw (.tooLong shown)
  p.parts.mapM Text.settled

/-- The place from where a path leads. -/
def origin (t : FileTree) (p : Path) : List Text := if p.isAbsolute then [] else t.cwd

theorem locate_eq (t : FileTree) (shown : Text) (p : Path) :
    t.locate shown p = namedParts shown p >>= t.walk shown (t.origin p) := by
  unfold locate namedParts origin
  cases p.text.systemBytes with
  | error fault => rfl
  | ok bytes =>
    simp only [ok_bind]
    by_cases long : Path.reach < bytes.length
    · simp [long]
    · simp [long]

theorem locate_eq_ok : t.locate shown p = .ok place ↔
    ∃ parts, namedParts shown p = .ok parts ∧ t.walk shown (t.origin p) parts = .ok place := by
  rw [locate_eq, bind_eq_ok]

theorem mapM_of_namedParts {parts : List Text} (named : namedParts shown p = .ok parts) :
    p.parts.mapM Text.settled = .ok parts := by
  obtain ⟨bytes, -, named⟩ := bind_eq_ok.mp named
  by_cases long : Path.reach < bytes.length
  · simp [long] at named
  · simpa [long] using named

theorem lookup_of_locate (located : t.locate p.text p = .ok place) :
    t.lookup p = .ok (t.entry? place) := by
  rw [lookup, located]

end FileTree

end JobMatrix
