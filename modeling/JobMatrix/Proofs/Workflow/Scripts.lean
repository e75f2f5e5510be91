import JobMatrix.Load
import JobMatrix.Proofs.Entries
import JobMatrix.Proofs.Outcome

set_option autoImplicit false

/-!
What a script gives a workflow from. It is a workflow or a list of jobs that some script in the files
defines, by itself or by its function; a workflow is taken as it is, or made anew where further
labels are to be accepted.
-/

namespace JobMatrix

/-- A definition stands for something: itself, or what its function leads to. -/
inductive Definition.Gives : Definition → Defined → Prop where
  | value {v : Defined} : Gives (.value v) v
  | function {f : ScriptFunction} {v : Defined} : f.body = .ok v → Gives (.function f) v

/-- Some script in the files defines the value. -/
def FileTree.Defines (t : FileTree) (v : Defined) : Prop :=
  ∃ place globals, (place, .script (.ok globals)) ∈ t.entries ∧
    ∃ name definition, (name, definition) ∈ globals ∧ definition.Gives v

theorem exists_mem_of_find_eq_some {κ α : Type} {same : κ → κ → Bool} {entries : List (κ × α)}
    {key : κ} {value : α} (found : find same entries key = some value) :
    ∃ k, (k, value) ∈ entries := by
  induction entries with
  | nil => simp [find] at found
  | cons e entries ih =>
    obtain ⟨k, v⟩ := e
    rw [find] at found
    split at found
    next =>
      obtain rfl := Option.some.inj found
      exact ⟨k, List.mem_cons_self⟩
    next =>
      obtain ⟨l, member⟩ := ih found
      exact ⟨l, List.mem_cons_of_mem _ member⟩

theorem FileTree.mem_of_lookup {t : FileTree} {p : Path} {s : Script}
    (found : t.lookup p = .ok (some (.script s))) : ∃ place, (place, .script s) ∈ t.entries := by
  unfold lookup at found
  split at found
  next place _ =>
    have here := Except.ok.inj found
    unfold entry? at here
    split at here
    next => simp at here
    next => exact exists_mem_of_find_eq_some here
  next => simp at found
  next => simp at found

theorem ScriptFunction.body_of_call {f : ScriptFunction} {v : Defined} (called : f.call = .ok v) :
    f.body = .ok v := by
  unfold call at called
  split at called
  next => exact called
  next => simp at called

namespace Load

variable {settings : Settings} {t : FileTree} {path full : Path} {extra : List Text}
  {globals : Entries Definition} {v : Defined} {w : Workflow}

theorem gives_of_callFunction {place : Text} {f : ScriptFunction}
    (called : callFunction place f = .ok v) : Definition.Gives (.function f) v := by
  unfold callFunction at called
  split at called
  next => split at called <;> simp at called
  next => exact .function (ScriptFunction.body_of_call called)

theorem gives_of_defined {place : Text} (found : defined place globals = .ok v)
    (some : v ≠ .other) : ∃ name definition, (name, definition) ∈ globals ∧ definition.Gives v := by
  unfold defined at found
  split at found
  next f here => exact ⟨_, _, Entries.mem_of_get?_eq_some here, gives_of_callFunction found⟩
  next =>
    split at found
    next u here =>
      obtain rfl := Except.ok.inj found
      rcases Option.or_eq_some_iff.mp here with first | ⟨-, second⟩
      · exact ⟨_, _, Entries.mem_of_get?_eq_some first, .value⟩
      · exact ⟨_, _, Entries.mem_of_get?_eq_some second, .value⟩
    next => exact absurd (Except.ok.inj found).symm some

theorem mem_of_execute (executed : execute t full = .ok globals) (some : globals ≠ []) :
    ∃ place, (place, .script (.ok globals)) ∈ t.entries := by
  obtain ⟨entry, found, rest⟩ := bind_eq_ok.mp executed
  have here := mapError_eq_ok.mp found
  split at rest
  next => simp at rest
  next s =>
    subst rest
    exact FileTree.mem_of_lookup here
  next => exact absurd (pure_eq_ok.mp rest).symm some
  next => exact absurd (pure_eq_ok.mp rest).symm some
  next =>
    obtain ⟨entry, found, rest⟩ := bind_eq_ok.mp rest
    have here := mapError_eq_ok.mp found
    split at rest
    next s =>
      subst rest
      exact FileTree.mem_of_lookup here
    next => exact absurd (pure_eq_ok.mp rest).symm some
    next => simp at rest

theorem defines_of_execute (executed : execute t full = .ok globals)
    (found : defined full.text globals = .ok v) (some : v ≠ .other) : t.Defines v := by
  obtain ⟨name, definition, member, gives⟩ := gives_of_defined found some
  obtain ⟨place, inTree⟩ := mem_of_execute executed (List.ne_nil_of_mem member)
  exact ⟨place, globals, inTree, name, definition, member, gives⟩

/-- The workflow that is made of what a script defines. -/
inductive Adopts (settings : Settings) (stem : Text) : List Text → Defined → Workflow → Prop where
  | kept {w : Workflow} : Adopts settings stem [] (.workflow w) w
  | widened {extra : List Text} {v w : Workflow} : extra ≠ [] → v.widen settings extra = .ok w →
      Adopts settings stem extra (.workflow v) w
  | gathered {extra : List Text} {js : List Job} {w : Workflow} :
      Workflow.make settings (.text stem) js (.map []) extra = .ok w →
      Adopts settings stem extra (.jobs js) w

/-- What a path defines as a script, where the path has been followed to. -/
def ScriptAt (t : FileTree) (path full : Path) (v : Defined) : Prop :=
  ∃ globals, resolved t path = .ok full ∧ execute t full = .ok globals ∧
    defined full.text globals = .ok v

theorem script_eq_ok : script settings t path extra = .ok w ↔
    ∃ full v, ScriptAt t path full v ∧ Adopts settings full.stem extra v w := by
  simp only [script, bind_eq_ok]
  constructor
  · rintro ⟨full, here, globals, executed, v, found, made⟩
    refine ⟨full, v, ⟨globals, here, executed, found⟩, ?_⟩
    cases v with
    | workflow u =>
      simp only at made
      split at made
      next none =>
        obtain rfl := List.isEmpty_iff.mp none
        obtain rfl := pure_eq_ok.mp made
        exact .kept
      next some => exact .widened (by simpa using some) made
    | jobs js => exact .gathered made
    | other => simp at made
  · rintro ⟨full, v, ⟨globals, here, executed, found⟩, adopts⟩
    refine ⟨full, here, globals, executed, v, found, ?_⟩
    cases adopts with
    | kept => rfl
    | widened some made => simpa [some] using made
    | gathered made => exact made

theorem Adopts.defines (here : ScriptAt t path full v) (adopts : Adopts settings full.stem extra v w) :
    t.Defines v := by
  obtain ⟨globals, -, executed, found⟩ := here
  apply defines_of_execute executed found
  rintro rfl
  cases adopts

end Load

end JobMatrix
