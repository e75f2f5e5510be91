import JobMatrix.Proofs.CacheKey.StepKey

set_option autoImplicit false

/-!
Variables of a planned step. A step shows its variables twice: in its texts, where a placeholder
that names a variable becomes the value that the step or the job gives it, and in its environment,
where the placeholders inside this value are replaced as well. Both are the same value when there
are none.
-/

namespace JobMatrix

namespace Placeholder

/-- The second text is the first with something in the place of each placeholder. -/
def Filled (instead : Placeholder → Text) (before after : Text) : Prop :=
  ∃ pieces last, Splits before pieces last ∧ after = assembled instead pieces last

theorem filled_iff_eq_render {c : Context} {before after : Text} :
    Filled (replacement c) before after ↔ after = render c before := by
  obtain ⟨pieces, last, cut, rendered⟩ := exists_splits c before
  constructor
  · rintro ⟨pieces', last', cut', rfl⟩
    obtain ⟨rfl, rfl⟩ := cut.unique cut'
    exact rendered.symm
  · intro same
    exact ⟨pieces, last, cut, same.trans rendered⟩

theorem replacement_of_names {c : Context} {p : Placeholder} {head property : Text}
    (named : Names p.expression head property) : replacement c p = lookup c head property := by
  rw [replacement, reference?_eq_some.mpr named]

theorem replacement_eq_source {c : Context} {p : Placeholder}
    (unnamed : ∀ head property, ¬ Names p.expression head property) :
    replacement c p = p.source := by
  rcases replacement_standsFor c p with ⟨head, property, named, -⟩ | ⟨-, same⟩
  · exact absurd named (unnamed head property)
  · exact same

/-- A text whose placeholders name no property stays as it is. -/
theorem render_of_unmentioned {c : Context} {t : Text}
    (unmentioned : ∀ head property, ¬ Mentions t head property) : render c t = t := by
  obtain ⟨pieces, last, cut, rendered⟩ := exists_splits c t
  have same : pieces.flatMap (fun piece => piece.1 ++ replacement c piece.2) =
      pieces.flatMap fun piece => piece.1 ++ piece.2.source := by
    refine List.flatMap_congr fun piece member => ?_
    rw [replacement_eq_source fun head property named =>
      unmentioned head property ⟨pieces, last, cut, piece, member, named⟩]
  rw [render, rendered, assembled, same]
  exact cut.text_eq.symm

theorem lookup_env {i : Instance} {env : Entries Text} {c : Context} (hc : i.context env = .ok c)
    (property : Text) : lookup c "env" property = (env.get? property).getD [] := by
  simp only [Instance.context, bind_eq_ok, pure_eq_ok] at hc
  obtain ⟨os, -, rfl⟩ := hc
  rfl

theorem exists_context_iff {i : Instance} {env : Entries Text} :
    (∃ c, i.context env = .ok c) ↔ ∃ os, i.os = .ok os := by
  simp only [Instance.context, bind_eq_ok, pure_eq_ok]
  constructor
  · rintro ⟨_, os, isOs, -⟩
    exact ⟨os, isOs⟩
  · rintro ⟨os, isOs⟩
    exact ⟨_, os, isOs, rfl⟩

end Placeholder

open Placeholder

namespace Value

def text? : Value → Option Text
  | .text s => some s
  | _ => none

theorem readable_eq_ok {v : Value} {t : Text} : v.readable = .ok t ↔ v = .text t := by
  cases v <;> simp [readable]

theorem rendered_eq_ok {c : Context} {v w : Value} :
    v.rendered c = .ok w ↔ ∃ t, v = .text t ∧ w = .text (render c t) := by
  simp only [rendered, bind_eq_ok, pure_eq_ok, readable_eq_ok]
  constructor
  · rintro ⟨t, isText, rfl⟩
    exact ⟨t, isText, rfl⟩
  · rintro ⟨t, isText, rfl⟩
    exact ⟨t, isText, rfl⟩

theorem renderedIfGiven_eq_ok {c : Context} {v w : Value} :
    v.renderedIfGiven c = .ok w ↔
      (v = .null ∧ w = .null) ∨ ∃ t, v = .text t ∧ w = .text (render c t) := by
  unfold renderedIfGiven
  cases v <;> simp [isNull, rendered_eq_ok, eq_comm (a := Value.null)]

/-- A text, or nothing. -/
def IsTextIfGiven (v : Value) : Prop := v = .null ∨ ∃ t, v = .text t

theorem exists_renderedIfGiven_iff {c : Context} {v : Value} :
    (∃ w, v.renderedIfGiven c = .ok w) ↔ v.IsTextIfGiven := by
  simp only [renderedIfGiven_eq_ok]
  constructor
  · rintro ⟨w, ⟨isNull, -⟩ | ⟨t, isText, -⟩⟩
    · exact .inl isNull
    · exact .inr ⟨t, isText⟩
  · rintro (isNull | ⟨t, isText⟩)
    · exact ⟨.null, .inl ⟨isNull, rfl⟩⟩
    · exact ⟨_, .inr ⟨t, isText, rfl⟩⟩

theorem forall₂_text?_of_renderedIfGiven {c : Context} {v w : Value}
    (made : v.renderedIfGiven c = .ok w) :
    List.Forall₂ (Filled (replacement c)) v.text?.toList w.text?.toList := by
  rcases renderedIfGiven_eq_ok.mp made with ⟨rfl, rfl⟩ | ⟨t, rfl, rfl⟩
  · exact .nil
  · exact .cons (filled_iff_eq_render.mpr rfl) .nil

theorem forall₂_text?_of_rendered {c : Context} {v w : Value} (made : v.rendered c = .ok w) :
    List.Forall₂ (Filled (replacement c)) v.text?.toList w.text?.toList := by
  obtain ⟨t, rfl, rfl⟩ := rendered_eq_ok.mp made
  exact .cons (filled_iff_eq_render.mpr rfl) .nil

end Value

namespace Step

variable {i : Instance} {env : Entries Text} {s t : Step}

/-- The texts of a step in which placeholders are replaced, its environment apart. -/
def fields (s : Step) : List Text :=
  s.name.text?.toList ++ s.run.text?.toList ++ s.inputs.map Prod.snd ++ s.shell.text?.toList
    ++ s.cwd.text?.toList

/-- What is rendered of a step is text, and only its name has to be there. -/
structure Renderable (s : Step) : Prop where
  name : ∃ t, s.name = .text t
  run : s.run.IsTextIfGiven
  shell : s.shell.IsTextIfGiven
  cwd : s.cwd.IsTextIfGiven

theorem rendered_eq_ok : s.rendered i env = .ok t ↔
    ∃ c name run shell cwd, i.context (env.update s.env) = .ok c ∧ s.name.rendered c = .ok name ∧
      s.run.renderedIfGiven c = .ok run ∧ s.shell.renderedIfGiven c = .ok shell ∧
      s.cwd.renderedIfGiven c = .ok cwd ∧
      t = { s with name, run, shell, cwd, inputs := renderEntries c s.inputs,
                   env := renderEntries c s.env } := by
  simp only [rendered, bind_eq_ok, pure_eq_ok]
  constructor
  · rintro ⟨c, context, name, isName, run, isRun, shell, isShell, cwd, isCwd, rfl⟩
    exact ⟨c, name, run, shell, cwd, context, isName, isRun, isShell, isCwd, rfl⟩
  · rintro ⟨c, name, run, shell, cwd, context, isName, isRun, isShell, isCwd, rfl⟩
    exact ⟨c, context, name, isName, run, isRun, shell, isShell, cwd, isCwd, rfl⟩

theorem exists_rendered_iff :
    (∃ t, s.rendered i env = .ok t) ↔ (∃ os, i.os = .ok os) ∧ s.Renderable := by
  simp only [rendered_eq_ok]
  constructor
  · rintro ⟨_, c, name, run, shell, cwd, context, isName, isRun, isShell, isCwd, -⟩
    obtain ⟨t, isText, -⟩ := Value.rendered_eq_ok.mp isName
    refine ⟨exists_context_iff.mp ⟨c, context⟩, ⟨t, isText⟩, ?_, ?_, ?_⟩
    · exact Value.exists_renderedIfGiven_iff.mp ⟨run, isRun⟩
    · exact Value.exists_renderedIfGiven_iff.mp ⟨shell, isShell⟩
    · exact Value.exists_renderedIfGiven_iff.mp ⟨cwd, isCwd⟩
  · rintro ⟨known, ⟨name, isName⟩, run, shell, cwd⟩
    obtain ⟨c, context⟩ := exists_context_iff.mpr known
    obtain ⟨run', isRun⟩ := Value.exists_renderedIfGiven_iff.mpr run
    obtain ⟨shell', isShell⟩ := Value.exists_renderedIfGiven_iff.mpr shell
    obtain ⟨cwd', isCwd⟩ := Value.exists_renderedIfGiven_iff.mpr cwd
    exact ⟨_, c, _, run', shell', cwd', context,
      Value.rendered_eq_ok.mpr ⟨name, isName, rfl⟩, isRun, isShell, isCwd, rfl⟩

/-- One context stands behind all texts of a rendered step. -/
theorem filled_of_rendered (made : s.rendered i env = .ok t) :
    ∃ c, i.context (env.update s.env) = .ok c ∧ t.env = renderEntries c s.env ∧
      List.Forall₂ (Filled (replacement c)) s.fields t.fields := by
  obtain ⟨c, name, run, shell, cwd, context, isName, isRun, isShell, isCwd, rfl⟩ :=
    rendered_eq_ok.mp made
  refine ⟨c, context, rfl, ?_⟩
  have inputs : List.Forall₂ (Filled (replacement c)) (s.inputs.map Prod.snd)
      ((renderEntries c s.inputs).map Prod.snd) := by
    simp only [renderEntries, List.map_map, List.forall₂_map_left_iff, List.forall₂_map_right_iff,
      List.forall₂_same]
    exact fun e _ => filled_iff_eq_render.mpr rfl
  have front := List.rel_append (Value.forall₂_text?_of_rendered isName)
    (Value.forall₂_text?_of_renderedIfGiven isRun)
  have shown := List.rel_append front inputs
  have withShell := List.rel_append shown (Value.forall₂_text?_of_renderedIfGiven isShell)
  exact List.rel_append withShell (Value.forall₂_text?_of_renderedIfGiven isCwd)

/-- How the rendered step shows a variable that the step has given a value, where the context is
that of its texts. -/
structure ShowsVariable (c : Context) (t : Step) (name value : Text) : Prop where
  inTexts : ∀ p, Names p.expression "env" name → replacement c p = value
  inEnvironment : ∃ shown, t.env.get? name = some shown ∧ Filled (replacement c) value shown
  /-- Both are the same when the value is what its own placeholders make of it. -/
  agree : t.env.get? name = some value ↔ Filled (replacement c) value value
  settled : (∀ head property, ¬ Mentions value head property) → t.env.get? name = some value

/-- How a rendered step shows the variables of the step. -/
def ShowsVariables (i : Instance) (env : Entries Text) (s t : Step) : Prop :=
  ∃ c, i.context (env.update s.env) = .ok c ∧
    List.Forall₂ (Filled (replacement c)) s.fields t.fields ∧
    ∀ name value, s.env.get? name = some value → ShowsVariable c t name value

theorem showsVariables_of_rendered (distinct : s.env.keys.Nodup) (made : s.rendered i env = .ok t) :
    ShowsVariables i env s t := by
  obtain ⟨c, context, inEnv, filled⟩ := filled_of_rendered made
  refine ⟨c, context, filled, fun name value given => ?_⟩
  have shown : t.env.get? name = some (render c value) := by
    rw [inEnv, renderEntries, Entries.get?_map, given]
    rfl
  refine ⟨?_, ⟨_, shown, filled_iff_eq_render.mpr rfl⟩, ?_, ?_⟩
  · intro p named
    rw [replacement_of_names named, lookup_env context, Entries.get?_update distinct, given]
    rfl
  · rw [shown, Option.some.injEq, filled_iff_eq_render]
    exact eq_comm
  · intro settled
    rw [shown, render_of_unmentioned settled]

end Step

/-- The steps of a job are rendered when they are text and the operating system is known. Each of
them shows a variable of its own as it was given in its texts, and rendered in its environment. -/
theorem Job.variables_of_renderedSteps {j : Job} {i : Instance}
    (distinct : ∀ s ∈ j.steps, s.env.keys.Nodup) :
    ((∃ steps, j.renderedSteps i = .ok steps) ↔
      (j.steps ≠ [] → ∃ os, i.os = .ok os) ∧ ∀ s ∈ j.steps, s.Renderable) ∧
    ∀ steps, j.renderedSteps i = .ok steps →
      List.Forall₂ (Step.ShowsVariables i j.env) j.steps steps := by
  constructor
  · constructor
    · rintro ⟨steps, made⟩
      have each (s : Step) (member : s ∈ j.steps) : (∃ os, i.os = .ok os) ∧ s.Renderable := by
        obtain ⟨t, -, made⟩ := exists_mem_right_of_forall₂ (mapM_eq_ok.mp made) member
        exact Step.exists_rendered_iff.mp ⟨t, made⟩
      refine ⟨fun inhabited => ?_, fun s member => (each s member).2⟩
      obtain ⟨s, member⟩ := List.exists_mem_of_ne_nil _ inhabited
      exact (each s member).1
    · rintro ⟨known, each⟩
      refine exists_mapM_eq_ok fun s member => Step.exists_rendered_iff.mpr ⟨?_, each s member⟩
      exact known (List.ne_nil_of_mem member)
  · intro steps made
    have each := (List.forall₂_and_left j.steps steps).mpr ⟨distinct, mapM_eq_ok.mp made⟩
    exact each.imp fun s t step => Step.showsVariables_of_rendered step.1 step.2

namespace Step

/-- A step that prints a variable of its own with the value. -/
def printing (value : Text) : Step where
  name := .text "s"
  run := .text "echo $\x7b\x7b env.A \x7d\x7d"
  env := [("A", value)]

/-- A job with this step alone. -/
def printingJob (value : Text) : Job :=
  { name := "j", platform := .text "linux", steps := [printing value] }

/-- An instance that has the value `a` on its axis. -/
def onAxis : Instance :=
  { job := "j", platform := .text "linux", assignment := [("os", "a")] }

theorem printing_shows_variables :
    ∃ steps, (printingJob "a").renderedSteps onAxis = .ok steps ∧
      List.Forall₂ (ShowsVariables onAxis []) [printing "a"] steps := by
  have distinct : ∀ s ∈ (printingJob "a").steps, s.env.keys.Nodup := by
    intro s member
    obtain rfl : s = printing "a" := by simpa [printingJob] using member
    decide
  have texts : ∀ s ∈ (printingJob "a").steps, s.Renderable := by
    intro s member
    obtain rfl : s = printing "a" := by simpa [printingJob] using member
    exact ⟨⟨_, rfl⟩, .inr ⟨_, rfl⟩, .inl rfl, .inl rfl⟩
  obtain ⟨made, shown⟩ := Job.variables_of_renderedSteps (i := onAxis) distinct
  obtain ⟨steps, rendered⟩ := made.mpr ⟨fun _ => ⟨_, rfl⟩, texts⟩
  exact ⟨steps, rendered, shown steps rendered⟩

theorem printing_axis_passes :
    ((printing "$\x7b\x7b matrix.os \x7d\x7d").rendered onAxis []).toOption.any (fun t =>
      decide (t.run.text? = some (Text.ofString "echo $\x7b\x7b matrix.os \x7d\x7d")) &&
      decide (t.env.get? "A" = some (Text.ofString "a"))) = true := by
  decide +kernel

/-- The value of the variable names the axis. The text of the step has it as it is, and the
environment has the value on the axis. -/
theorem printing_axis_shows_two_values :
    ∃ t, (printing "$\x7b\x7b matrix.os \x7d\x7d").rendered onAxis [] = .ok t ∧
      t.run.text? = some (Text.ofString "echo $\x7b\x7b matrix.os \x7d\x7d") ∧
      t.env.get? "A" = some (Text.ofString "a") := by
  obtain ⟨t, made, shown⟩ := exists_of_any printing_axis_passes
  simp only [Bool.and_eq_true, decide_eq_true_eq] at shown
  exact ⟨t, made, shown⟩

end Step

end JobMatrix
