import JobMatrix.Form
import JobMatrix.Proofs.Entries
import JobMatrix.Proofs.Outcome
import JobMatrix.Proofs.Text.Blank

set_option autoImplicit false

/-!
Steps as documents write them, and the steps that are made of them. Only integers that are too long
to print and commands of blanks keep a form from giving a step, and a form that gives a step can
say what it keeps as well.
-/

namespace JobMatrix

namespace Value

/-- The value is no integer too long to print, and holds none where it is printed whole. -/
def Printable (v : Value) : Prop := v.scalarText?.isSome = true

instance (v : Value) : Decidable v.Printable := inferInstanceAs (Decidable (_ = _))

theorem scalar_text (t : Text) : (text t).scalar = .ok t := rfl

theorem printable_iff {v : Value} : v.Printable ↔ ∃ t, v.scalar = .ok t := by
  unfold Printable scalar
  cases v.scalarText? <;> simp

end Value

/-- All values can be printed. -/
def Entries.Printable (entries : Entries Value) : Prop := ∀ e ∈ entries, e.2.Printable

instance (entries : Entries Value) : Decidable entries.Printable :=
  inferInstanceAs (Decidable (∀ e ∈ entries, e.2.Printable))

namespace StepForm

variable {s : StepForm} {entries : Entries Value} {texts : Entries Text}

theorem scalars_eq_ok :
    scalars entries = .ok texts ↔ ∃ pairs, List.Forall₂
      (fun e p => p.1 = e.1 ∧ e.2.scalar = .ok p.2) entries pairs ∧ Entries.ofPairs pairs = texts := by
  simp only [scalars, bind_eq_ok, pure_eq_ok, mapM_pair_eq_ok]

theorem scalars_nodup (h : scalars entries = .ok texts) : texts.keys.Nodup := by
  obtain ⟨pairs, -, rfl⟩ := scalars_eq_ok.mp h
  exact Entries.nodup_keys_ofPairs pairs

/-- Different keys keep their values, in scalar form. -/
theorem get?_scalars (distinct : entries.keys.Nodup) (h : scalars entries = .ok texts) (key : Text) :
    Option.Rel (fun v t => v.scalar = .ok t) (entries.get? key) (texts.get? key) := by
  obtain ⟨pairs, each, rfl⟩ := scalars_eq_ok.mp h
  have keys : Entries.keys pairs = Entries.keys entries :=
    (map_eq_map_of_forall₂ each fun _ _ found => found.1.symm).symm
  rw [Entries.ofPairs_eq_self (keys ▸ distinct)]
  clear h distinct keys
  induction each with
  | nil => exact .none
  | @cons e p _ _ here _ ih =>
    obtain ⟨k, v⟩ := e
    obtain ⟨k', t⟩ := p
    obtain ⟨rfl, shown⟩ := here
    rw [Entries.get?_cons, Entries.get?_cons]
    split
    next => exact .some shown
    next => exact ih

theorem scalars_text (texts : Entries Text) :
    scalars (texts.map fun e => (e.1, .text e.2)) = .ok (Entries.ofPairs texts) := by
  refine scalars_eq_ok.mpr ⟨texts, ?_, rfl⟩
  rw [List.forall₂_map_left_iff, List.forall₂_same]
  exact fun e _ => ⟨rfl, Value.scalar_text e.2⟩

theorem printable_iff : entries.Printable ↔ ∃ texts, scalars entries = .ok texts := by
  constructor
  · intro printable
    have each : ∀ e ∈ entries, ∃ p : Text × Text, (do return (e.1, ← e.2.scalar)) = .ok p := by
      intro e member
      obtain ⟨t, shown⟩ := Value.printable_iff.mp (printable e member)
      exact ⟨(e.1, t), bind_eq_ok.mpr ⟨t, shown, rfl⟩⟩
    obtain ⟨pairs, made⟩ := exists_mapM_eq_ok each
    exact ⟨Entries.ofPairs pairs, bind_eq_ok.mpr ⟨pairs, made, rfl⟩⟩
  · rintro ⟨texts, made⟩ e member
    obtain ⟨pairs, each, -⟩ := scalars_eq_ok.mp made
    obtain ⟨p, -, -, shown⟩ := exists_mem_right_of_forall₂ each member
    exact Value.printable_iff.mpr ⟨p.2, shown⟩

theorem step_eq_ok {t : Step} :
    s.step = .ok t ↔ ∃ name inputs env, s.title = .ok name ∧ scalars s.inputs = .ok inputs ∧
      scalars s.env = .ok env ∧
      t = ⟨.text name, .ofText? s.run, .ofText? s.uses, inputs, .ofText? s.shell, .ofText? s.cwd,
        env⟩ := by
  simp only [step, bind_eq_ok, pure_eq_ok]
  constructor
  · rintro ⟨name, titled, inputs, shown, env, shownEnv, rfl⟩
    exact ⟨name, inputs, env, titled, shown, shownEnv, rfl⟩
  · rintro ⟨name, inputs, env, titled, shown, shownEnv, rfl⟩
    exact ⟨name, titled, inputs, shown, env, shownEnv, rfl⟩

/-- A step without a name can take one from its command, when this is more than blanks. -/
def Titled (s : StepForm) : Prop :=
  given? s.name = none → ∀ run ∈ given? s.run, Text.isBlankText run = false

instance (s : StepForm) : Decidable s.Titled := inferInstanceAs (Decidable (_ → _))

theorem Titled.title (titled : s.Titled) : ∃ name, s.title = .ok name := by
  unfold StepForm.title
  split
  next => exact ⟨_, rfl⟩
  next run unnamed command =>
    have words : Text.lines (Text.trim run) ≠ [] := fun none => by
      have blank := Text.trim_eq_nil_iff.mp (Text.lines_eq_nil_iff.mp none)
      simp [titled unnamed run command] at blank
    split
    next first _ _ => exact ⟨_, rfl⟩
    next none => exact absurd none words
  next => exact ⟨_, rfl⟩

theorem Titled.step (titled : s.Titled) (inputs : s.inputs.Printable) (env : s.env.Printable) :
    ∃ t, s.step = .ok t := by
  obtain ⟨name, titled⟩ := titled.title
  obtain ⟨inputs, shown⟩ := printable_iff.mp inputs
  obtain ⟨env, shownEnv⟩ := printable_iff.mp env
  exact ⟨_, step_eq_ok.mpr ⟨name, inputs, env, titled, shown, shownEnv, rfl⟩⟩

/-- The template for the key of what a step keeps: its input of this name, unless that is null. -/
def keyTemplate (s : StepForm) : Except Failure Value :=
  match s.inputs.get? "key" with
  | none | some .null => .ok .null
  | some v => return .text (← v.scalar)

theorem cacheSpec_eq (s : StepForm) : s.cacheSpec = do
    let paths ← ((s.inputs.get? "path").getD .null).scalar
    return ⟨(pathLines paths).map .text, ← s.keyTemplate⟩ := by
  unfold cacheSpec keyTemplate
  congr 1
  funext paths
  cases s.inputs.get? "key" with
  | none => rfl
  | some v =>
    cases v with
    | null => rfl
    | _ => simp only [bind_assoc]

theorem cacheSpec_eq_ok {spec : CacheSpec} :
    s.cacheSpec = .ok spec ↔ ∃ paths, ((s.inputs.get? "path").getD .null).scalar = .ok paths ∧
      s.keyTemplate = .ok spec.key ∧ spec.paths = (pathLines paths).map .text := by
  simp only [cacheSpec_eq, bind_eq_ok, pure_eq_ok]
  constructor
  · rintro ⟨paths, shown, key, template, rfl⟩
    exact ⟨paths, shown, template, rfl⟩
  · rintro ⟨paths, shown, template, lines⟩
    exact ⟨paths, shown, spec.key, template, lines ▸ rfl⟩

/-- The template for the key is the input of the step, when that is not empty. -/
theorem keyTemplate_of_step {t : Step} {template : Text} (distinct : s.inputs.keys.Nodup)
    (made : s.step = .ok t) (given : t.inputs.get? "key" = some template)
    (inhabited : template ≠ []) : s.keyTemplate = .ok (.text template) := by
  obtain ⟨name, inputs, env, -, shown, -, rfl⟩ := step_eq_ok.mp made
  have related := get?_scalars distinct shown "key"
  rw [given] at related
  unfold keyTemplate
  cases found : s.inputs.get? "key" with
  | none =>
    rw [found] at related
    cases related
  | some v =>
    rw [found] at related
    cases related with
    | some shown =>
      split
      next absent => cases absent
      next null =>
        obtain rfl := Option.some.inj null
        exact absurd (Except.ok.inj shown).symm inhabited
      next v' _ same =>
        obtain rfl := Option.some.inj same
        exact bind_eq_ok.mpr ⟨template, shown, rfl⟩

theorem exists_cacheSpec {t : Step} (made : s.step = .ok t) : ∃ spec, s.cacheSpec = .ok spec := by
  obtain ⟨name, inputs, env, -, shown, -, -⟩ := step_eq_ok.mp made
  have found {key : Text} {v : Value} (here : s.inputs.get? key = some v) : ∃ t, v.scalar = .ok t :=
    Value.printable_iff.mp (printable_iff.mpr ⟨inputs, shown⟩ _ (Entries.mem_of_get?_eq_some here))
  have paths : ∃ paths, ((s.inputs.get? "path").getD .null).scalar = .ok paths := by
    cases here : s.inputs.get? "path" with
    | none => exact ⟨[], rfl⟩
    | some v => exact found here
  have key : ∃ key, s.keyTemplate = .ok key := by
    unfold keyTemplate
    split
    next => exact ⟨.null, rfl⟩
    next => exact ⟨.null, rfl⟩
    next v _ here =>
      obtain ⟨t, shown⟩ := found here
      exact ⟨.text t, bind_eq_ok.mpr ⟨t, shown, rfl⟩⟩
  obtain ⟨paths, shown⟩ := paths
  obtain ⟨key, template⟩ := key
  exact ⟨⟨_, key⟩, cacheSpec_eq_ok.mpr ⟨paths, shown, template, rfl⟩⟩

/-- Forms that give steps can say what the first of them keeps that keeps something. -/
theorem exists_cacheOf {forms : List StepForm} {steps : List Step}
    (made : forms.mapM step = .ok steps) : ∃ cache, cacheOf forms = .ok cache := by
  unfold cacheOf
  cases found : forms.find? isCache with
  | none => exact ⟨none, rfl⟩
  | some s =>
    obtain ⟨t, -, made⟩ :=
      exists_mem_right_of_forall₂ (mapM_eq_ok.mp made) (List.mem_of_find?_eq_some found)
    obtain ⟨spec, told⟩ := exists_cacheSpec made
    exact ⟨some spec, by rw [Option.mapM_some, told]; rfl⟩

end StepForm

end JobMatrix
