import JobMatrix.Proofs.Workflow.Typed

set_option autoImplicit false

/-!
The scope of variables. A step sees the variables of its job, apart from those that it gives a value
itself, be it an empty one. Rendering puts the values that it sees in the place of their placeholders
and leaves the shape of the step as it is. What the job says of a variable that the step has itself
makes no difference to the rendered step.
-/

namespace JobMatrix

namespace Placeholder

theorem WellFormed.opening_isPrefix {p : Placeholder} (wellFormed : p.WellFormed) :
    opening <+: p.source := by
  obtain ⟨before, after, -, -, spelled⟩ := wellFormed.spelled
  rw [spelled]
  simp only [List.append_assoc]
  exact List.prefix_append opening _

/-- Where no braces open there is no placeholder, and the text stays as it is. -/
theorem render_of_unopened {c : Context} {t : Text} (unopened : ¬ opening <:+: t) :
    render c t = t := by
  apply render_of_unmentioned
  rintro head property ⟨pieces, last, cut, piece, member, -⟩
  apply unopened
  cases cut with
  | last free => cases member
  | @piece l rest last p pieces free begins later =>
    exact begins.wellFormed.opening_isPrefix.isInfix.trans ⟨l, rest, rfl⟩

end Placeholder

open Placeholder

theorem Value.isNull_of_rendered {c : Context} {v w : Value} (made : v.renderedIfGiven c = .ok w) :
    w.isNull = v.isNull := by
  rcases renderedIfGiven_eq_ok.mp made with ⟨rfl, rfl⟩ | ⟨t, rfl, rfl⟩
  · rfl
  · rfl

theorem keys_renderEntries (c : Context) (entries : Entries Text) :
    (renderEntries c entries).keys = entries.keys :=
  Entries.keys_map _ entries

namespace Step

variable {i : Instance} {env env' : Entries Text} {s t : Step}

/-- The variable as the step sees it: its own value, even if it is empty, else the value that the job
gives it, else nothing. -/
def valueOf (s : Step) (jobEnv : Entries Text) (name : Text) : Text :=
  match s.env.get? name with
  | some value => value
  | none =>
    match jobEnv.get? name with
    | some value => value
    | none => []

/-- The environments show a step the same variables. -/
def SeesSame (s : Step) (env env' : Entries Text) : Prop :=
  ∀ name, s.env.get? name = none → env'.get? name = env.get? name

/-- All texts of a step in which placeholders are replaced. -/
def texts (s : Step) : List Text := s.fields ++ s.env.map Prod.snd

/-- The second step has the action of the first, its keys, and texts where the first has some. -/
structure SameShape (s t : Step) : Prop where
  uses : t.uses = s.uses
  inputs : t.inputs.keys = s.inputs.keys
  env : t.env.keys = s.env.keys
  run : t.run.isNull = s.run.isNull
  shell : t.shell.isNull = s.shell.isNull
  cwd : t.cwd.isNull = s.cwd.isNull

theorem SameShape.isDefinite_eq (shape : SameShape s t) : t.isDefinite = s.isDefinite := by
  rw [isDefinite, isDefinite, shape.run, shape.uses]

theorem sameShape_of_rendered (made : s.rendered i env = .ok t) : SameShape s t := by
  obtain ⟨c, name, run, shell, cwd, -, -, isRun, isShell, isCwd, rfl⟩ := rendered_eq_ok.mp made
  exact {
    uses := rfl
    inputs := keys_renderEntries c s.inputs
    env := keys_renderEntries c s.env
    run := Value.isNull_of_rendered isRun
    shell := Value.isNull_of_rendered isShell
    cwd := Value.isNull_of_rendered isCwd }

/-! ### Values -/

theorem get?_update_eq_valueOf (distinct : s.env.keys.Nodup) (name : Text) :
    ((env.update s.env).get? name).getD [] = s.valueOf env name := by
  rw [Entries.get?_update distinct, valueOf]
  cases s.env.get? name with
  | some value => rfl
  | none => cases env.get? name <;> rfl

theorem SeesSame.valueOf_eq (same : s.SeesSame env env') (name : Text) :
    s.valueOf env' name = s.valueOf env name := by
  unfold valueOf
  split
  next => rfl
  next absent => rw [same name absent]

/-- How a rendered step shows the variables in all its texts. -/
theorem filled_with_valueOf (distinct : s.env.keys.Nodup) (made : s.rendered i env = .ok t) :
    ∃ instead, List.Forall₂ (Filled instead) s.texts t.texts ∧
      ∀ p name, Names p.expression "env" name → instead p = s.valueOf env name := by
  obtain ⟨c, context, inEnv, filled⟩ := filled_of_rendered made
  refine ⟨replacement c, ?_, ?_⟩
  · apply List.rel_append filled
    rw [inEnv]
    simp only [renderEntries, List.map_map, List.forall₂_map_left_iff, List.forall₂_map_right_iff,
      List.forall₂_same]
    exact fun e _ => filled_iff_eq_render.mpr rfl
  · intro p name named
    rw [replacement_of_names named, lookup_env context, get?_update_eq_valueOf distinct]

/-- Values without placeholders are in the environment of the rendered step as they were given. -/
theorem env_of_rendered (made : s.rendered i env = .ok t)
    (plain : ∀ value ∈ s.env.map Prod.snd, ¬ opening <:+: value) : t.env = s.env := by
  obtain ⟨c, -, inEnv, -⟩ := filled_of_rendered made
  have same : ∀ e ∈ s.env, (e.1, render c e.2) = id e := by
    intro e member
    rw [render_of_unopened (plain e.2 (List.mem_map_of_mem member))]
    rfl
  rw [inEnv, renderEntries, List.map_congr_left same, List.map_id]

/-! ### Two environments -/

theorem SeesSame.render_eq (same : s.SeesSame env env') (distinct : s.env.keys.Nodup) {c c' : Context}
    (hc : i.context (env.update s.env) = .ok c) (hc' : i.context (env'.update s.env) = .ok c') :
    render c' = render c := by
  funext text
  apply render_congr
  intro head property _
  apply lookup_context hc' hc
  rintro -
  rw [get?_update_eq_valueOf distinct, get?_update_eq_valueOf distinct, same.valueOf_eq]

/-- What a job says of variables that the step has itself makes no difference. -/
theorem SeesSame.rendered_eq (same : s.SeesSame env env') (distinct : s.env.keys.Nodup)
    (i : Instance) : s.rendered i env' = s.rendered i env := by
  cases known : i.os with
  | error e => simp only [rendered, Instance.context, known]; rfl
  | ok os =>
    have context (values : Entries Text) : ∃ c, i.context values = .ok c :=
      exists_context_iff.mpr ⟨os, known⟩
    obtain ⟨c, hc⟩ := context (env.update s.env)
    obtain ⟨c', hc'⟩ := context (env'.update s.env)
    have renders := same.render_eq distinct hc hc'
    have given : Value.rendered c' = Value.rendered c := by
      funext v
      rw [Value.rendered, Value.rendered, renders]
    have optional : Value.renderedIfGiven c' = Value.renderedIfGiven c := by
      funext v
      rw [Value.renderedIfGiven, Value.renderedIfGiven, given]
    have entries : renderEntries c' = renderEntries c := by
      funext entries
      rw [renderEntries, renderEntries, renders]
    simp only [rendered, hc, hc', bind, Except.bind, given, optional, entries]

/-! ### Rendered steps -/

/-- How a step of a job with these variables is rendered. -/
structure Scoped (i : Instance) (env : Entries Text) (s t : Step) : Prop where
  shape : SameShape s t
  /-- The rendered step has a command or an action, and not both. -/
  definite : t.isDefinite = true
  shown : ∃ instead, List.Forall₂ (Filled instead) s.texts t.texts ∧
    ∀ p name, Names p.expression "env" name → instead p = s.valueOf env name
  plain : (∀ value ∈ s.env.map Prod.snd, ¬ opening <:+: value) → t.env = s.env
  hidden : ∀ env', s.SeesSame env env' → s.rendered i env' = .ok t

theorem scoped_of_rendered (definite : s.isDefinite = true) (distinct : s.env.keys.Nodup)
    (made : s.rendered i env = .ok t) : Scoped i env s t where
  shape := sameShape_of_rendered made
  definite := (sameShape_of_rendered made).isDefinite_eq.trans definite
  shown := filled_with_valueOf distinct made
  plain := env_of_rendered made
  hidden _ same := (same.rendered_eq distinct i).trans made

end Step

/-- The steps of a job are rendered one by one, when their texts are text as they are meant to be. Each
keeps its shape, and shows each variable as the job and the step together give it. -/
theorem Job.scoped_of_renderedSteps {j : Job} {i : Instance} (constructed : j.Constructed)
    (distinct : ∀ s ∈ j.steps, s.env.keys.Nodup) :
    (∀ label, i.platform = .text label →
      ((∃ steps, j.renderedSteps i = .ok steps) ↔ ∀ s ∈ j.steps, s.Renderable) ∧
      (j.Typed → ∃ steps, j.renderedSteps i = .ok steps)) ∧
    ∀ steps, j.renderedSteps i = .ok steps →
      steps.length = j.steps.length ∧ List.Forall₂ (Step.Scoped i j.env) j.steps steps := by
  constructor
  · intro label labelled
    have rendered := Job.exists_renderedSteps_iff (j := j) labelled
    refine ⟨rendered, ?_⟩
    intro typed
    apply rendered.mpr
    intro s member
    exact (typed.steps s member).renderable
  · intro steps made
    have each := mapM_eq_ok.mp made
    refine ⟨each.length_eq.symm, ?_⟩
    have known : ∀ s ∈ j.steps, s.isDefinite = true ∧ s.env.keys.Nodup := by
      intro s member
      exact ⟨constructed.wellFormed.definite s member, distinct s member⟩
    apply ((List.forall₂_and_left j.steps steps).mpr ⟨known, each⟩).imp
    rintro s t ⟨⟨definite, distinct⟩, made⟩
    exact Step.scoped_of_rendered definite distinct made

namespace Step

/-- A step that hides a variable of its job with an empty value, and shows one of the job. -/
def shadowing : Step where
  name := .text "s"
  run := .text "echo $\x7b\x7b env.A \x7d\x7d$\x7b\x7b env.B \x7d\x7d$\x7b\x7b env.C \x7d\x7d"
  env := [("A", "")]

def shadowingJob : Job where
  name := "j"
  platform := .text "linux"
  steps := [shadowing,
    { name := .text "t", uses := .text "a", inputs := [("x", "$\x7b\x7benv.A\x7d\x7d")] }]
  env := [("A", "x"), ("B", "y")]

theorem shadowingJob_steps_scoped : ∃ steps, shadowingJob.renderedSteps onAxis = .ok steps ∧
    steps.length = 2 ∧ List.Forall₂ (Scoped onAxis shadowingJob.env) shadowingJob.steps steps := by
  have constructed : shadowingJob.Constructed :=
    ⟨.text "j", .text "linux", shadowingJob.steps, none,
      [(.text "A", .text "x"), (.text "B", .text "y")], .bool true, none, rfl⟩
  have distinct : ∀ s ∈ shadowingJob.steps, s.env.keys.Nodup := by decide
  have steps : ∀ s ∈ shadowingJob.steps, s.Typed := by
    simp only [shadowingJob, List.forall_mem_cons]
    refine ⟨?_, ?_, List.forall_mem_nil _⟩
    · exact ⟨⟨_, rfl⟩, .inr ⟨_, rfl⟩, .inl rfl, .inl rfl, .inl rfl⟩
    · exact ⟨⟨_, rfl⟩, .inl rfl, .inr ⟨_, rfl⟩, .inl rfl, .inl rfl⟩
  have typed : shadowingJob.Typed := ⟨⟨_, rfl⟩, steps, ⟨_, rfl⟩, by simp [shadowingJob]⟩
  obtain ⟨made, each⟩ := Job.scoped_of_renderedSteps (i := onAxis) constructed distinct
  obtain ⟨steps, rendered⟩ := (made "linux" rfl).2 typed
  exact ⟨steps, rendered, each steps rendered⟩

example : (shadowingJob.renderedSteps onAxis).toOption.map
      (List.map fun s => [s.run.text?, s.inputs.get? "x"]) =
    some ([[some "echo y", none], [none, some "x"]].map (List.map (Option.map Text.ofString))) := by
  decide +kernel

end Step

end JobMatrix
