import JobMatrix.Load
import JobMatrix.Proofs.Entries
import JobMatrix.Proofs.Outcome

set_option autoImplicit false

/-!
What the shape check lets through. The entries of a form have every key once, a form has a job, and
every job has a step.
-/

namespace JobMatrix

structure StepForm.Sound (s : StepForm) : Prop where
  inputs : s.inputs.keys.Nodup
  env : s.env.keys.Nodup

structure JobForm.Sound (j : JobForm) : Prop where
  axes : ∀ strategy ∈ j.strategy, ∀ axes ∈ strategy.matrix, axes.keys.Nodup
  env : j.env.keys.Nodup
  hasSteps : j.steps ≠ []
  steps : ∀ s ∈ j.steps, s.Sound

structure WorkflowForm.Sound (w : WorkflowForm) : Prop where
  hasJobs : w.jobs ≠ []
  names : w.jobs.keys.Nodup
  jobs : ∀ j ∈ w.jobs, j.2.Sound

namespace Verdict

variable {α β : Type}

theorem and_eq_ok {a : Verdict α} {b : Verdict β} {x : α} {y : β} :
    a.and b = .ok (x, y) ↔ a = .ok x ∧ b = .ok y := by
  cases a <;> cases b <;> simp [Verdict.and]

theorem all_eq_ok {vs : List (Verdict α)} {xs : List α} :
    all vs = .ok xs ↔ List.Forall₂ (fun v x => v = .ok x) vs xs := by
  induction vs generalizing xs with
  | nil =>
    rw [List.forall₂_nil_left_iff, all, Except.ok.injEq]
    exact eq_comm
  | cons v vs ih =>
    simp only [all, map_eq_ok, Prod.exists, and_eq_ok, ih, List.forall₂_cons_left_iff]
    constructor
    · rintro ⟨x, xs, ⟨hx, hxs⟩, rfl⟩
      exact ⟨x, xs, hx, hxs, rfl⟩
    · rintro ⟨x, xs, hx, hxs, rfl⟩
      exact ⟨x, xs, ⟨hx, hxs⟩, rfl⟩

end Verdict

namespace Check

open Yaml (Document)

variable {α : Type} {d : Document} {place : List Text} {part : Part}
  {entries : List (Value × Nat)}

theorem fields_eq_ok {v : Verdict α} {x : α} (h : fields place entries v = .ok x) : v = .ok x := by
  unfold fields at h
  split at h
  next => simp [Verdict.fault] at h
  next =>
    obtain ⟨⟨y, u⟩, both, rfl⟩ := map_eq_ok.mp h
    exact (Verdict.and_eq_ok.mp both).1

theorem record_eq_ok {name : String} {check : List (Value × Nat) → Verdict α} {x : α}
    (h : record d name place part check = .ok x) : ∃ entries, check entries = .ok x := by
  unfold record at h
  split at h
  next entries _ => exact ⟨entries, fields_eq_ok h⟩
  next => simp [Verdict.fault] at h

theorem optional_eq_ok {name other : String} {default x : α}
    {check : List Text → Part → Verdict α}
    (h : optional place entries name other default check = .ok x) :
    x = default ∨ ∃ at_ part, check at_ part = .ok x := by
  unfold optional at h
  split at h
  next n part _ => exact .inr ⟨_, part, h⟩
  next => exact .inl (Except.ok.inj h).symm

theorem required_eq_ok {name other : String} {x : α} {check : List Text → Part → Verdict α}
    (h : required place entries name other check = .ok x) :
    ∃ at_ part, check at_ part = .ok x := by
  unfold required at h
  split at h
  next n part _ => exact ⟨_, part, h⟩
  next => simp [Verdict.fault] at h

theorem orNull_eq_ok {check : List Text → Part → Verdict α} {x : Option α}
    (h : orNull d check place part = .ok x) :
    ∀ y ∈ x, ∃ at_ part, check at_ part = .ok y := by
  intro y member
  unfold orNull at h
  split at h
  next =>
    obtain rfl := Except.ok.inj h
    simp at member
  next =>
    obtain ⟨z, checked, rfl⟩ := map_eq_ok.mp h
    obtain rfl := Option.some.inj member
    exact ⟨place, part, checked⟩

theorem list_eq_ok {check : List Text → Part → Verdict α} {xs : List α}
    (h : list d place part check = .ok xs) : ∀ x ∈ xs, ∃ at_ part, check at_ part = .ok x := by
  intro x member
  unfold list at h
  split at h
  next parts _ =>
    obtain ⟨v, checked, rfl⟩ := exists_mem_left_of_forall₂ (Verdict.all_eq_ok.mp h) member
    obtain ⟨k, bound, here⟩ := List.mem_mapIdx.mp checked
    exact ⟨_, _, here⟩
  next => simp [Verdict.fault] at h

theorem someOf_eq_ok {v : Verdict (List α)} {xs : List α} (h : someOf place v = .ok xs) :
    v = .ok xs ∧ xs ≠ [] := by
  obtain ⟨ys, checked, kept⟩ := bind_eq_ok.mp h
  split at kept
  next => simp [Verdict.fault] at kept
  next some =>
    obtain rfl := Except.ok.inj kept
    exact ⟨checked, by simpa using some⟩

theorem entriesWith_eq_ok {check : List Text → Nat → Verdict α} {es : Entries α}
    (h : entriesWith place entries check = .ok es) :
    es.keys.Nodup ∧ ∀ e ∈ es, ∃ at_ id, check at_ id = .ok e.2 := by
  obtain ⟨pairs, checked, rfl⟩ := map_eq_ok.mp h
  refine ⟨Entries.nodup_keys_ofPairs pairs, fun e member => ?_⟩
  have inPairs := Entries.mem_of_mem_ofPairs member
  obtain ⟨v, inEntries, here⟩ := exists_mem_left_of_forall₂ (Verdict.all_eq_ok.mp checked) inPairs
  obtain ⟨entry, -, rfl⟩ := List.mem_map.mp inEntries
  exact ⟨_, _, (Verdict.and_eq_ok.mp here).2⟩

theorem valueEntries_nodup {es : Entries Value} (h : valueEntries d place part = .ok es) :
    es.keys.Nodup := by
  unfold valueEntries at h
  split at h
  next => exact (entriesWith_eq_ok h).1
  next => simp [Verdict.fault] at h

theorem optional_valueEntries_nodup {name other : String} {es : Entries Value}
    (h : optional place entries name other [] (valueEntries d) = .ok es) : es.keys.Nodup := by
  rcases optional_eq_ok h with rfl | ⟨_, _, checked⟩
  · exact List.nodup_nil
  · exact valueEntries_nodup checked

theorem step_sound {s : StepForm} (h : step d place part = .ok s) : s.Sound := by
  obtain ⟨entries, checked⟩ := record_eq_ok h
  obtain ⟨⟨name, run, uses, inputs, shell, cwd, env⟩, parts, rfl⟩ := map_eq_ok.mp checked
  simp only [Verdict.and_eq_ok] at parts
  obtain ⟨-, -, -, inputs, -, -, env⟩ := parts
  exact ⟨optional_valueEntries_nodup inputs, optional_valueEntries_nodup env⟩

theorem strategy_nodup {s : StrategyForm} (h : strategy d place part = .ok s) :
    ∀ axes ∈ s.matrix, axes.keys.Nodup := by
  obtain ⟨entries, checked⟩ := record_eq_ok h
  obtain ⟨⟨failFast, matrix⟩, parts, rfl⟩ := map_eq_ok.mp checked
  obtain ⟨-, matrix⟩ := Verdict.and_eq_ok.mp parts
  intro axes member
  rcases optional_eq_ok matrix with rfl | ⟨_, _, checked⟩
  · simp at member
  · obtain ⟨_, _, axesChecked⟩ := orNull_eq_ok checked axes member
    exact valueEntries_nodup axesChecked

theorem job_sound {j : JobForm} (h : job d place part = .ok j) : j.Sound := by
  obtain ⟨entries, checked⟩ := record_eq_ok h
  obtain ⟨⟨runner, strategy, env, steps⟩, parts, rfl⟩ := map_eq_ok.mp checked
  simp only [Verdict.and_eq_ok] at parts
  obtain ⟨-, strategyPart, envPart, stepsPart⟩ := parts
  obtain ⟨_, _, checked⟩ := required_eq_ok stepsPart
  obtain ⟨listed, inhabited⟩ := someOf_eq_ok checked
  refine ⟨fun s member => ?_, optional_valueEntries_nodup envPart, inhabited, fun s member => ?_⟩
  · rcases optional_eq_ok strategyPart with rfl | ⟨_, _, checked⟩
    · simp at member
    · obtain ⟨_, _, strategyChecked⟩ := orNull_eq_ok checked s member
      exact strategy_nodup strategyChecked
  · obtain ⟨_, _, stepChecked⟩ := list_eq_ok listed s member
    exact step_sound stepChecked

theorem jobs_sound {js : Entries JobForm} (h : jobs d place part = .ok js) :
    js ≠ [] ∧ js.keys.Nodup ∧ ∀ j ∈ js, j.2.Sound := by
  unfold jobs at h
  split at h
  next =>
    obtain ⟨es, checked, kept⟩ := bind_eq_ok.mp h
    split at kept
    next => simp [Verdict.fault] at kept
    next some =>
      obtain rfl := Except.ok.inj kept
      obtain ⟨distinct, each⟩ := entriesWith_eq_ok checked
      refine ⟨by simpa using some, distinct, fun j member => ?_⟩
      obtain ⟨_, _, jobChecked⟩ := each j member
      exact job_sound jobChecked
  next => simp [Verdict.fault] at h

theorem workflow_sound {form : WorkflowForm} (h : workflow d entries = .ok form) : form.Sound := by
  obtain ⟨⟨name, js⟩, checked, rfl⟩ := map_eq_ok.mp h
  obtain ⟨-, jobsPart⟩ := Verdict.and_eq_ok.mp (fields_eq_ok checked)
  obtain ⟨_, _, jobsChecked⟩ := required_eq_ok jobsPart
  obtain ⟨hasJobs, names, each⟩ := jobs_sound jobsChecked
  exact ⟨hasJobs, names, each⟩

end Check

namespace Load

theorem readForm_sound {path : Text} {bytes : List UInt8} {form : WorkflowForm}
    (h : readForm path bytes = .ok form) : form.Sound := by
  obtain ⟨⟨d, entries⟩, -, checked⟩ := bind_eq_ok.mp h
  simp only at checked
  split at checked
  next form' shaped =>
    obtain rfl := Except.ok.inj checked
    exact Check.workflow_sound shaped
  next => simp at checked

/-- A document that gives a workflow is a file with the form of one. -/
theorem document_eq_ok {settings : Settings} {t : FileTree} {path : Path} {extra : List Text}
    {w : Workflow} (h : document settings t path extra = .ok w) :
    ∃ full bytes form, path.expandHome t.homes = .ok full ∧
      t.lookup full = .ok (some (.file bytes)) ∧ readForm full.text bytes = .ok form ∧
      form.workflow settings full.text full.stem extra = .ok w := by
  obtain ⟨full, expanded, rest⟩ := bind_eq_ok.mp h
  obtain ⟨entry, found, rest⟩ := bind_eq_ok.mp rest
  split at rest
  next bytes =>
    obtain ⟨form, read, made⟩ := bind_eq_ok.mp rest
    exact ⟨full, bytes, form, expanded, mapError_eq_ok.mp found, read, made⟩
  next => simp at rest
  next => simp at rest

theorem document_of_form {settings : Settings} {t : FileTree} {path full : Path}
    {bytes : List UInt8} {form : WorkflowForm} (expanded : path.expandHome t.homes = .ok full)
    (found : t.lookup full = .ok (some (.file bytes))) (read : readForm full.text bytes = .ok form)
    (extra : List Text) :
    document settings t path extra = form.workflow settings full.text full.stem extra := by
  unfold document
  simp only [expanded, found, read, bind, Except.bind, Except.mapError]

/-- A directory with one document. -/
def onlyFile (bytes : List UInt8) : FileTree where
  entries := [([Text.ofString "w.yml"], .file bytes)]

theorem lookup_onlyFile (bytes : List UInt8) :
    (onlyFile bytes).lookup (.ofText "w.yml") = .ok (some (.file bytes)) := rfl

theorem text_onlyFile : (Path.ofText "w.yml").text = Text.ofString "w.yml" := by decide

theorem stem_onlyFile : (Path.ofText "w.yml").stem = Text.ofString "w" := by decide

theorem document_onlyFile {bytes : List UInt8} {form : WorkflowForm}
    (read : readForm "w.yml" bytes = .ok form) (settings : Settings) (extra : List Text) :
    document settings (onlyFile bytes) (.ofText "w.yml") extra =
      form.workflow settings "w.yml" "w" extra := by
  rw [← text_onlyFile] at read ⊢
  rw [← stem_onlyFile]
  exact document_of_form rfl (lookup_onlyFile bytes) read extra

end Load

end JobMatrix
