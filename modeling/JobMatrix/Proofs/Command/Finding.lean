import JobMatrix.Discovery
import JobMatrix.Load
import JobMatrix.Proofs.Files.Resolving

set_option autoImplicit false

/-!
The file that an argument names. Before a workflow is loaded, its file is looked for by the path as it
was given. The loader of documents puts home directories into the path first, and that of scripts
takes two dots back as well, as it looks at the path from the root. They look at the same place where
no home directory is meant and all two dots of the path of a script are in folders.
-/

namespace JobMatrix

/-- Whether there is something to load. -/
def FileEntry.isFile : FileEntry → Bool
  | .file _ | .script _ => true
  | .folder | .sink => false

namespace Load

variable {settings : Settings} {t : FileTree} {p full : Path} {place : List Text} {extra : List Text}

/-! ### What loaders look at -/

/-- The path that the loader of a path looks at. -/
def lookedAt (t : FileTree) (p : Path) : Except Failure Path :=
  if isDocument p then p.expandHome t.homes else resolved t p

/-- The loader of a path finds something at a place. -/
def Finds (t : FileTree) (p : Path) (place : List Text) : Prop :=
  ∃ full, lookedAt t p = .ok full ∧ t.locate full.text full = .ok place

/-- What the loader of documents makes of what it finds. -/
def documentOf (settings : Settings) (full : Path) (extra : List Text) :
    FileEntry → Except Failure Workflow
  | .file bytes => do (← readForm full.text bytes).workflow settings full.text full.stem extra
  | .script _ => .error (.unloadable { path := full.text, obstacle := .notMapping "str" })
  | _ => .error (.unloadable { path := full.text, obstacle := .notFound })

/-- What the loader of scripts makes of what it finds. -/
def scriptOf (settings : Settings) (full : Path) (extra : List Text) (entry : FileEntry) :
    Except Failure Workflow := do
  let globals ← match entry with
    | .script s => s
    | _ => .ok []
  match ← defined full.text globals with
  | .workflow w => if extra.isEmpty then return w else w.widen settings extra
  | .jobs js => Workflow.make settings (.text full.stem) js (.map []) extra
  | .other => throw (.unloadable { path := full.text, obstacle := .nothingDefined })

def ofEntry (settings : Settings) (p full : Path) (extra : List Text) (entry : FileEntry) :
    Except Failure Workflow :=
  if isDocument p then documentOf settings full extra entry else scriptOf settings full extra entry

/-- The path leads its loader to the place that it leads to by itself, and not to a folder. -/
structure Straight (t : FileTree) (p : Path) : Prop where
  /-- No home directory is meant. -/
  own : p.expandHome t.homes = .ok p
  file : ∀ place entry, t.locate p.text p = .ok place → t.entry? place = some entry →
    entry.isFile = true
  climbs : isScript p = true → t.ClimbsFolders p
  short : isScript p = true → p.Short ∧ (p.resolve t.cwd).Short

theorem nameable_up : Text.Nameable Path.up := by
  simp [Text.Nameable, Path.up, CodePoint.isSurrogate]

/-- All paths on the way are those that files can be named by just when the whole path is. -/
theorem nameable_stages_iff (inhabited : p.parts ≠ []) :
    (∀ stage ∈ p.stages, stage.text.Nameable) ↔ p.text.Nameable := by
  have stage_iff (k : Nat) := @Path.nameable_text_iff
    { p with parts := Path.normalParts (p.parts.take (k + 1)) }
  simp only [Path.stages, List.forall_mem_map, List.mem_range, stage_iff]
  rw [Path.nameable_text_iff]
  constructor
  · intro each
    have first := each 0 (List.length_pos_of_ne_nil inhabited)
    refine ⟨first.1, fun part member => ?_⟩
    by_cases named : part = Path.up
    · rw [named]
      exact nameable_up
    · obtain ⟨k, bound, rfl⟩ := List.mem_iff_getElem.mp member
      apply (each k bound).2
      rw [List.take_succ_eq_append_getElem bound, Path.normalParts_concat, if_neg named]
      exact List.mem_append_right _ (List.mem_singleton.mpr rfl)
  · rintro ⟨root, parts⟩ k -
    refine ⟨root, fun part kept => parts part ?_⟩
    exact List.mem_of_mem_take (Path.mem_normalParts kept).1

theorem resolved_eq_ok_iff (own : p.expandHome t.homes = .ok p) (inhabited : p.parts ≠ []) :
    resolved t p = .ok full ↔ p.text.Nameable ∧ p.resolve t.cwd = full := by
  have step (stage : Path) : (discard stage.text.systemBytes).mapError Failure.file = .ok () ↔
      stage.text.Nameable := by
    rw [← Text.exists_systemBytes_iff]
    cases stage.text.systemBytes with
    | error fault => exact iff_of_false nofun nofun
    | ok bytes => exact iff_of_true rfl ⟨bytes, rfl⟩
  unfold resolved
  rw [own, ok_bind, bind_eq_ok, ← nameable_stages_iff inhabited]
  simp only [pure_eq_ok]
  constructor
  · rintro ⟨_, checked, same⟩
    exact ⟨fun stage member => (step stage).mp (forM_eq_ok.mp checked stage member), same⟩
  · rintro ⟨each, same⟩
    exact ⟨_, forM_eq_ok.mpr fun stage member => (step stage).mpr (each stage member), same⟩

/-! ### Places -/

theorem ne_nil_of_kind (kind : isDocument p = true ∨ isScript p = true) : p.parts ≠ [] := by
  intro none
  have nothing : p.suffix = [] := by simp [Path.suffix, Path.splitName, Path.name, none]
  simp [isDocument, isScript, nothing, Text.ofString, Text.ofChars] at kind

/-- A loader finds what the path leads to by itself. -/
theorem finds_iff (standing : t.Standing) (kind : isDocument p = true ∨ isScript p = true)
    (straight : Straight t p) : Finds t p place ↔ t.locate p.text p = .ok place := by
  unfold Finds lookedAt
  cases document : isDocument p with
  | true => simp [straight.own]
  | false =>
    have script : isScript p = true := by simpa [document] using kind
    obtain ⟨short, shortFull⟩ := straight.short script
    have same (nameable : p.text.Nameable) (shown : Text) : t.locate shown (p.resolve t.cwd) = _ :=
      FileTree.locate_resolve standing (straight.climbs script) nameable short shortFull
    simp only [Bool.false_eq_true, if_false, resolved_eq_ok_iff straight.own (ne_nil_of_kind kind)]
    constructor
    · rintro ⟨full, ⟨nameable, rfl⟩, located⟩
      rw [same nameable] at located
      rw [FileTree.locate_showing nameable short, located]
      rfl
    · intro located
      have nameable := FileTree.nameable_of_locate located
      refine ⟨_, ⟨nameable, rfl⟩, ?_⟩
      rw [same nameable, FileTree.locate_showing nameable short, located]
      rfl

theorem lookup_of_finds (finds : Finds t p place) :
    ∃ full, lookedAt t p = .ok full ∧ t.lookup full = .ok (t.entry? place) := by
  obtain ⟨full, looked, located⟩ := finds
  exact ⟨full, looked, FileTree.lookup_of_locate located⟩

theorem lookup_of_absent (standing : t.Standing) (kind : isDocument p = true ∨ isScript p = true)
    (straight : Straight t p) (nameable : p.text.Nameable) (absent : t.lookup p = .ok none) :
    ∃ full, lookedAt t p = .ok full ∧ t.lookup full = .ok none := by
  unfold lookedAt
  cases document : isDocument p with
  | true => exact ⟨p, straight.own, absent⟩
  | false =>
    have script : isScript p = true := by simpa [document] using kind
    obtain ⟨short, shortFull⟩ := straight.short script
    refine ⟨p.resolve t.cwd, ?_, ?_⟩
    · exact (resolved_eq_ok_iff straight.own (ne_nil_of_kind kind)).mpr ⟨nameable, rfl⟩
    · rw [FileTree.lookup_resolve standing (straight.climbs script) nameable short shortFull, absent]
      rfl

/-! ### What loaders make of it -/

theorem load_of_lookup {entry : FileEntry} (kind : isDocument p = true ∨ isScript p = true)
    (looked : lookedAt t p = .ok full) (found : t.lookup full = .ok (some entry))
    (file : entry.isFile = true) : load settings t p extra = ofEntry settings p full extra entry := by
  unfold load ofEntry
  unfold lookedAt at looked
  cases isDocument : isDocument p with
  | true =>
    rw [isDocument, if_pos rfl] at looked
    rw [if_pos rfl, if_pos rfl, document, looked, ok_bind, found]
    cases entry <;> rfl
  | false =>
    have isScript : isScript p = true := by simpa [isDocument] using kind
    rw [isDocument, if_neg Bool.false_ne_true] at looked
    rw [if_neg Bool.false_ne_true, if_neg Bool.false_ne_true, isScript, if_pos rfl, script, looked,
      ok_bind, execute, found]
    cases entry with
    | folder => cases file
    | _ => rfl

theorem load_of_absent (kind : isDocument p = true ∨ isScript p = true)
    (looked : lookedAt t p = .ok full) (absent : t.lookup full = .ok none) :
    load settings t p extra =
      .error (.unloadable { path := full.text, obstacle := .notFound }) := by
  unfold load
  unfold lookedAt at looked
  cases isDocument : isDocument p with
  | true =>
    rw [isDocument, if_pos rfl] at looked
    rw [if_pos rfl, document, looked, ok_bind, absent]
    rfl
  | false =>
    have isScript : isScript p = true := by simpa [isDocument] using kind
    rw [isDocument, if_neg Bool.false_ne_true] at looked
    rw [if_neg Bool.false_ne_true, isScript, if_pos rfl, script, looked, ok_bind, execute, absent]
    rfl

/-! ### The check -/

theorem exists_locate_iff :
    (∃ place, t.locate p.text p = .ok place) ↔ ∃ entry, t.lookup p = .ok (some entry) := by
  constructor
  · rintro ⟨place, located⟩
    obtain ⟨names, -, walked⟩ := FileTree.locate_eq_ok.mp located
    have there := FileTree.walk_end walked
    rw [FileTree.walk_nil] at there
    cases held : t.entry? place with
    | none => simp [held] at there
    | some entry => exact ⟨entry, (FileTree.lookup_of_locate located).trans (by rw [held])⟩
  · rintro ⟨entry, found⟩
    unfold FileTree.lookup at found
    split at found
    next place located => exact ⟨place, located⟩
    next => cases found
    next => cases found

/-- The check takes a path to which there is something, and says of others that they are not there. -/
theorem discover_eq {s : Text} (given : s ≠ []) : discover settings t (some s) =
    (t.lookup (.ofText s)).map fun entry =>
      if entry.isSome then .ok (.ofText s) else .error (.notThere s) := by
  have asked : (some s).filter (fun s => !s.isEmpty) = some s := by simpa using given
  unfold discover
  rw [asked]
  dsimp only
  unfold FileTree.pathExists
  cases t.lookup (.ofText s) with
  | error fault => rfl
  | ok entry => cases entry <;> rfl

/-- The check takes a path just when its loader finds something, in the same place, and then the loader
reads what is there. Of a path that the check refuses, the loader says that there is no file. -/
theorem finds_checked (settings : Settings) (extra : List Text) {s : Text} (standing : t.Standing)
    (kind : isDocument (.ofText s) = true ∨ isScript (.ofText s) = true)
    (straight : Straight t (.ofText s)) :
    (discover settings t (some s) = .ok (.ok (.ofText s)) ↔ ∃ place, Finds t (.ofText s) place) ∧
    (∀ place, Finds t (.ofText s) place → t.locate (Path.ofText s).text (.ofText s) = .ok place ∧
      ∃ full entry, lookedAt t (.ofText s) = .ok full ∧ t.entry? place = some entry ∧
        entry.isFile = true ∧
        load settings t (.ofText s) extra = ofEntry settings (.ofText s) full extra entry) ∧
    (discover settings t (some s) = .ok (.error (.notThere s)) → (Path.ofText s).text.Nameable →
      ∃ full, lookedAt t (.ofText s) = .ok full ∧ load settings t (.ofText s) extra =
        .error (.unloadable { path := full.text, obstacle := .notFound })) := by
  have given : s ≠ [] := by
    rintro rfl
    exact ne_nil_of_kind kind rfl
  refine ⟨?_, fun place finds => ?_, fun refused nameable => ?_⟩
  · simp only [finds_iff standing kind straight, exists_locate_iff]
    rw [discover_eq given]
    cases t.lookup (.ofText s) with
    | error fault => simp [Except.map]
    | ok entry => cases entry <;> simp [Except.map]
  · have located := (finds_iff standing kind straight).mp finds
    obtain ⟨full, looked, found⟩ := lookup_of_finds finds
    obtain ⟨entry, there⟩ := exists_locate_iff.mp ⟨place, located⟩
    rw [FileTree.lookup_of_locate located, Except.ok.injEq] at there
    rw [there] at found
    have file := straight.file place entry located there
    exact ⟨located, full, entry, looked, there, file, load_of_lookup kind looked found file⟩
  · have absent : t.lookup (.ofText s) = .ok none := by
      rw [discover_eq given] at refused
      obtain ⟨entry, found, none⟩ := map_eq_ok.mp refused
      cases entry with
      | none => exact found
      | some entry => cases none
    obtain ⟨full, looked, nothing⟩ := lookup_of_absent standing kind straight nameable absent
    exact ⟨full, looked, load_of_absent kind looked nothing⟩

/-- A script and a folder in the current directory, and a document in the home directory. -/
def away : FileTree where
  entries := [(["c"], .folder), (["c", "w.py"], .script (.ok [])), (["c", "sub"], .folder),
    (["h"], .folder), (["h", "w.yml"], .file [])]
  cwd := ["c"]
  homes := { own := ["h"] }

theorem away_standing : away.Standing := ⟨by decide, fun _ => rfl⟩

theorem away_climbs : away.ClimbsFolders (.ofText "sub/../w.py") := by
  intro before after split
  have parts : (Path.ofText "sub/../w.py").parts = (["sub", Path.up, "w.py"] : List Text) := rfl
  rw [parts] at split
  match before, split with
  | [], split => cases split
  | [_], split =>
    obtain ⟨rfl, -⟩ := List.cons.inj split
    rfl
  | [_, _], split => cases split
  | _ :: _ :: _ :: _, split => simp at split

theorem away_straight : Straight away (.ofText "sub/../w.py") where
  own := rfl
  file place entry located there := by
    obtain rfl : (["c", "w.py"] : List Text) = place := Except.ok.inj located
    obtain rfl : .script (.ok []) = entry := Option.some.inj there
    rfl
  climbs _ := away_climbs
  short _ := by
    refine ⟨fun bytes handed => ?_, fun bytes handed => ?_⟩
    all_goals
      obtain rfl := Except.ok.inj handed
      decide

theorem away_checked :
    discover {} away (some "sub/../w.py") = .ok (.ok (.ofText "sub/../w.py")) ∧
      ∀ place, Finds away (.ofText "sub/../w.py") place → place = ["c", "w.py"] := by
  obtain ⟨checked, read, -⟩ := finds_checked {} [] away_standing (.inr rfl) away_straight
  refine ⟨checked.mpr ⟨["c", "w.py"], ⟨"/", ["c", "w.py"]⟩, rfl, rfl⟩, fun place finds => ?_⟩
  obtain ⟨located, -⟩ := read place finds
  exact (Except.ok.inj located).symm

/-- The same with a folder called as the home directory is. -/
def namesake : FileTree :=
  { away with
    entries := (["c", "~"], .folder) :: (["c", "~", "w.yml"], .file []) :: away.entries }

/-- A document in the home directory and a script behind a folder that is not there are found by their
loaders only; and where the home directory has a namesake, the check looks at another file. -/
theorem home_checked_otherwise :
    (discover {} away (some "~/w.yml") = .ok (.error (.notThere "~/w.yml")) ∧
      Finds away (.ofText "~/w.yml") ["h", "w.yml"]) ∧
    (discover {} away (some "gone/../w.py") = .ok (.error (.notThere "gone/../w.py")) ∧
      Finds away (.ofText "gone/../w.py") ["c", "w.py"]) ∧
    (discover {} namesake (some "~/w.yml") = .ok (.ok (.ofText "~/w.yml")) ∧
      namesake.locate "~/w.yml" (.ofText "~/w.yml") = .ok ["c", "~", "w.yml"] ∧
      Finds namesake (.ofText "~/w.yml") ["h", "w.yml"]) := by
  refine ⟨⟨?_, ?_⟩, ⟨?_, ?_⟩, ⟨?_, ?_, ?_⟩⟩
  · rfl
  · exact ⟨⟨"/", ["h", "w.yml"]⟩, rfl, rfl⟩
  · rfl
  · exact ⟨⟨"/", ["c", "w.py"]⟩, rfl, rfl⟩
  · rfl
  · rfl
  · exact ⟨⟨"/", ["h", "w.yml"]⟩, rfl, rfl⟩

end Load

end JobMatrix
