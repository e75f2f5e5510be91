import JobMatrix.JobBuilder
import JobMatrix.Proofs.Form.Declared
import JobMatrix.Proofs.Matrix.Conversion

set_option autoImplicit false

/-!
Jobs made call by call. What a run of calls leaves in a builder depends on what the calls say of each
part and in which order, and on nothing else; so the job that is built at its end is the one that is
declared at once with the same parts.
-/

namespace JobMatrix

namespace JobBuilder

/-! ### Runs of calls -/

/-- The builder after a call. A call that fails leaves it as it was. -/
def after (b : JobBuilder) (c : Call) : JobBuilder :=
  match b.apply c with
  | .ok changed => changed
  | .error _ => b

def run (b : JobBuilder) (calls : List Call) : JobBuilder := calls.foldl after b

/-! ### What calls say -/

/-- What a call sets or adds to. -/
inductive Part where
  | platform
  | steps
  | axes
  | env
  | failFast
  | cache
  deriving DecidableEq

namespace Call

/-- Building sets nothing. -/
def part? : Call → Option Part
  | .runsOn _ => some .platform
  | .defineStep .. | .useAction .. => some .steps
  | .withAxis .. => some .axes
  | .withEnv _ => some .env
  | .failFast _ => some .failFast
  | .cache .. => some .cache
  | .build => none

@[simp] def platform? : Call → Option Value
  | .runsOn platform => some platform
  | _ => none

@[simp] def step? : Call → Option Step
  | .defineStep name run cwd shell => some (.command name run cwd shell)
  | .useAction name action inputs => (Step.action name action inputs).toOption
  | _ => none

@[simp] def axis? : Call → Option (Value × List Value)
  | .withAxis axis values => some (axis, values)
  | _ => none

@[simp] def env? : Call → Option (Entries Value)
  | .withEnv env => some env
  | _ => none

@[simp] def failFast? : Call → Option Value
  | .failFast enabled => some enabled
  | _ => none

@[simp] def cache? : Call → Option CacheSpec
  | .cache paths key => some ⟨paths, key⟩
  | _ => none

/-- Whether a call is taken. Refused are actions and variables with values that have no text, and
inputs that are called as the name or the action is. -/
def isTaken : Call → Bool
  | .useAction name action inputs => (Step.action name action inputs).isOk
  | .withEnv env => decide env.Printable
  | _ => true

end Call

/-- The variables that calls set, later ones over earlier ones. -/
def environment (calls : List Call) : Entries Value :=
  (calls.filterMap Call.env?).foldl Entries.update []

def lastCache (calls : List Call) : Option CacheSpec := (calls.filterMap Call.cache?).getLast?

/-- The job that calls describe, declared at once. -/
def declaration (name : Value) (calls : List Call) : Declaration where
  name
  platform := (calls.filterMap Call.platform?).getLast?.getD .null
  steps := calls.filterMap Call.step?
  matrix :=
    let axes := calls.filterMap Call.axis?
    if axes.isEmpty then none else some (.declared (axes.map fun a => (a.1, .list a.2)))
  env := (environment calls).map fun e => (.text e.1, e.2)
  failFast := (calls.filterMap Call.failFast?).getLast?.getD (.bool true)
  cachePaths := ((lastCache calls).map fun c => .list c.paths).getD .null
  cacheKey := ((lastCache calls).map CacheSpec.key).getD .null

/-! ### One call -/

variable {b : JobBuilder} {c : Call}

/-- Variables as text. -/
def shown (env : Entries Value) : Entries Text := env.map fun e => (e.1, e.2.cellText)

theorem scalar_eq_ok_iff {v : Value} {t : Text} : v.scalar = .ok t ↔ v.Printable ∧ v.cellText = t := by
  unfold Value.scalar Value.Printable Value.cellText
  cases v.scalarText? <;> simp

theorem mapM_scalar {env : Entries Value} (printable : env.Printable) :
    (env.mapM fun p => do return (p.1, ← p.2.scalar) : Except Failure (Entries Text)) =
      .ok (shown env) := by
  rw [mapM_pair_eq_ok, shown, List.forall₂_map_right_iff, List.forall₂_same]
  exact fun e member => ⟨rfl, scalar_eq_ok_iff.mpr ⟨printable e member, rfl⟩⟩

theorem shown_nil : shown [] = [] := rfl

theorem update_nil (env : Entries Text) : env.update [] = env := rfl

/-- What a call that is taken does to each part of a builder. -/
theorem after_of_taken (taken : c.isTaken = true) : b.after c =
    { b with
      platform := c.platform?.getD b.platform
      steps := b.steps ++ c.step?.toList
      axes := b.axes ++ c.axis?.toList
      env := b.env.update (shown (c.env?.getD []))
      failFast := c.failFast?.getD b.failFast
      cache := c.cache?.or b.cache } := by
  cases c with
  | useAction name action inputs =>
    obtain ⟨step, made⟩ := exists_of_isOk taken
    simp [after, apply, made, Except.toOption, shown_nil, update_nil]
  | withEnv env =>
    have printable : env.Printable := of_decide_eq_true taken
    simp only [after, apply, mapM_scalar printable]
    simp
  | build =>
    cases built : b.build <;> simp [after, apply, built, shown_nil, update_nil]
  | _ => simp [after, apply, shown_nil, update_nil]

theorem after_of_refused (refused : c.isTaken = false) : b.after c = b := by
  cases c with
  | useAction name action inputs =>
    cases made : Step.action name action inputs with
    | ok step => simp [Call.isTaken, made, Except.isOk, Except.toBool] at refused
    | error failure => simp [after, apply, made]
  | withEnv env =>
    have unprintable : ¬ env.Printable := of_decide_eq_false refused
    cases printed : (env.mapM fun p => do return (p.1, ← p.2.scalar) : Except Failure _) with
    | error failure => simp only [after, apply, printed, error_bind]
    | ok texts =>
      refine absurd (StepForm.printable_iff.mpr ⟨Entries.ofPairs texts, ?_⟩) unprintable
      exact bind_eq_ok.mpr ⟨texts, printed, rfl⟩
  | _ => cases refused

/-- What the first call says comes first. -/
theorem filterMap_cons_toList {α β : Type} (f : α → Option β) (a : α) (as : List α) :
    (a :: as).filterMap f = (f a).toList ++ as.filterMap f := by
  cases h : f a <;> simp [h]

theorem getLast?_toList_append {α : Type} (o : Option α) (as : List α) :
    (o.toList ++ as).getLast? = as.getLast?.or o := by
  cases o with
  | none => simp
  | some a => cases last : as.getLast? <;> simp [List.getLast?_cons, last]

/-- A builder after a run has what it had, and what the calls that were taken said. -/
theorem run_eq (b : JobBuilder) (calls : List Call) : b.run calls =
    let said := calls.filter Call.isTaken
    { name := b.name
      platform := (said.filterMap Call.platform?).getLast?.getD b.platform
      steps := b.steps ++ said.filterMap Call.step?
      axes := b.axes ++ said.filterMap Call.axis?
      env := (said.filterMap Call.env?).foldl (fun env more => env.update (shown more)) b.env
      failFast := (said.filterMap Call.failFast?).getLast?.getD b.failFast
      cache := (lastCache said).or b.cache } := by
  induction calls generalizing b with
  | nil => simp [run, lastCache]
  | cons c calls ih =>
    have next : b.run (c :: calls) = (b.after c).run calls := rfl
    rw [next, ih]
    cases taken : c.isTaken with
    | false => rw [after_of_refused taken, List.filter_cons_of_neg (by simp [taken])]
    | true =>
      have env (es : Entries Text) (o : Option (Entries Value)) (more : List (Entries Value)) :
          (o.toList ++ more).foldl (fun env more => env.update (shown more)) es =
            more.foldl (fun env more => env.update (shown more)) (es.update (shown (o.getD []))) := by
        cases o <;> rfl
      rw [after_of_taken taken, List.filter_cons_of_pos taken]
      simp only [env, lastCache, filterMap_cons_toList, getLast?_toList_append, Option.getD_or,
        Option.or_assoc, List.append_assoc]

/-! ### Environments -/

theorem shown_update (env changes : Entries Value) :
    shown (env.update changes) = (shown env).update (shown changes) :=
  Entries.map_update Value.cellText env changes

theorem foldl_shown (env : Entries Value) (changes : List (Entries Value)) :
    changes.foldl (fun env more => env.update (shown more)) (shown env) =
      shown (changes.foldl Entries.update env) := by
  induction changes generalizing env with
  | nil => rfl
  | cons more changes ih => rw [List.foldl_cons, ← shown_update, ih, List.foldl_cons]

theorem nodup_keys_foldl {env : Entries Value} (distinct : env.keys.Nodup)
    (changes : List (Entries Value)) : (changes.foldl Entries.update env).keys.Nodup := by
  induction changes generalizing env with
  | nil => exact distinct
  | cons more changes ih => exact ih (Entries.nodup_keys_update distinct more)

theorem printable_foldl {env : Entries Value} {changes : List (Entries Value)}
    (before : env.Printable) (each : ∀ more ∈ changes, more.Printable) :
    Entries.Printable (changes.foldl Entries.update env) := by
  induction changes generalizing env with
  | nil => exact before
  | cons more changes ih =>
    obtain ⟨first, later⟩ := List.forall_mem_cons.mp each
    refine ih (fun e member => ?_) later
    exact (Entries.mem_update member).elim (before e) (first e)

theorem printable_environment {calls : List Call} :
    (environment (calls.filter Call.isTaken)).Printable := by
  refine printable_foldl (List.forall_mem_nil _) fun more said => ?_
  obtain ⟨c, member, sets⟩ := List.mem_filterMap.mp said
  obtain ⟨-, taken⟩ := List.mem_filter.mp member
  cases c with
  | withEnv env =>
    obtain rfl := Option.some.inj sets
    exact of_decide_eq_true taken
  | _ => cases sets

/-- The variables that a run leaves are those that its calls set, as text. -/
theorem scalars_environment (calls : List Call) :
    StepForm.scalars (environment (calls.filter Call.isTaken)) =
      .ok (shown (environment (calls.filter Call.isTaken))) := by
  have distinct : (shown (environment (calls.filter Call.isTaken))).keys.Nodup := by
    rw [shown, Entries.keys_map]
    have start : (Entries.keys ([] : Entries Value)).Nodup := List.nodup_nil
    exact nodup_keys_foldl start _
  rw [StepForm.scalars, mapM_scalar printable_environment, ok_bind, Entries.ofPairs_eq_self distinct]
  rfl

/-! ### The job -/

theorem matrix_declaration (name : Value) (calls : List Call) :
    (declaration name calls).matrix.mapM (·.matrix name) =
      let axes := calls.filterMap Call.axis?
      if axes.isEmpty then pure none
      else some <$> Matrix.ofPairs name (axes.map fun a => (a.1, .list a.2)) := by
  unfold declaration
  dsimp only
  split <;> rfl

/-- A declaration of calls gives the job of its parts. -/
theorem job_declaration (name : Value) {calls : List Call}
    (stepped : calls.filterMap Call.step? ≠ []) :
    (declaration name calls).job =
      (let axes := calls.filterMap Call.axis?
        if axes.isEmpty then pure none
        else some <$> Matrix.ofPairs name (axes.map fun a => (a.1, .list a.2))) >>= fun matrix =>
      Job.make name (declaration name calls).platform (calls.filterMap Call.step?) matrix
        ((environment calls).map fun e => (.text e.1, e.2)) (declaration name calls).failFast
        (lastCache calls) := by
  have cache : (declaration name calls).cache = .ok (lastCache calls) := Declaration.cache_eq rfl rfl
  have noCwd : (declaration name calls).cwd.isNull = true := rfl
  have hasSteps : (declaration name calls).steps.isEmpty = false := by
    simpa [declaration] using stepped
  rw [← matrix_declaration, Declaration.job, hasSteps, cache, noCwd]
  rfl

/-- A builder after a run from its start has the parts of what its calls declare. -/
theorem run_start (name : Value) (calls : List Call) : run { name } calls =
    let said := calls.filter Call.isTaken
    { name
      platform := (declaration name said).platform
      steps := said.filterMap Call.step?
      axes := said.filterMap Call.axis?
      env := shown (environment said)
      failFast := (declaration name said).failFast
      cache := lastCache said } := by
  have env := foldl_shown [] ((calls.filter Call.isTaken).filterMap Call.env?)
  rw [shown_nil] at env
  rw [run_eq]
  simp only [env, List.nil_append, Option.or_none]
  rfl

/-- A builder with a platform and steps builds the job of its parts. -/
theorem build_eq (placed : b.platform.isNull = false) (stepped : b.steps.isEmpty = false) :
    b.build = (if b.axes.isEmpty then pure none
      else some <$> Matrix.ofPairs b.name b.declaredAxes) >>= fun matrix =>
        Job.make b.name b.platform b.steps matrix (b.env.map fun e => (.text e.1, .text e.2))
          b.failFast b.cache := by
  simp only [build, placed, stepped]
  cases b.axes.isEmpty <;> rfl

/-- A run that says where to run and has a step builds what it declares; of what is missing, the
platform is asked for first. -/
theorem build_run (name : Value) (calls : List Call) : (run { name } calls).build =
    let d := declaration name (calls.filter Call.isTaken)
    if d.platform.isNull then .error (.invalid { complaint := .platformUnset, job := name })
    else if d.steps.isEmpty then .error (.invalid { complaint := .stepsUnset, job := name })
    else d.job := by
  have texts := scalars_environment calls
  rw [run_start]
  generalize calls.filter Call.isTaken = said at texts ⊢
  have steps : (declaration name said).steps = said.filterMap Call.step? := rfl
  dsimp only
  cases unset : (declaration name said).platform.isNull with
  | true => simp [build, unset]
  | false =>
    cases none : (said.filterMap Call.step?).isEmpty with
    | true => simp [build, unset, steps, none]
    | false =>
      have stepped : said.filterMap Call.step? ≠ [] := by simpa using none
      rw [build_eq unset none, steps, none, job_declaration name stepped]
      simp only [Job.make_scalars texts]
      rfl

/-! ### The order of calls -/

/-- The calls that set a part or add to it. -/
def writing (part : Part) (calls : List Call) : List Call :=
  calls.filter fun c => c.part? = some part

/-- What calls say of a part is said by those that write it. -/
theorem filterMap_writing {β : Type} {f : Call → Option β} {part : Part}
    (ofPart : ∀ c, c.part? ≠ some part → f c = none) (calls : List Call) :
    (calls.filter Call.isTaken).filterMap f =
      ((writing part calls).filter Call.isTaken).filterMap f := by
  simp only [writing, List.filterMap_filter]
  refine List.filterMap_congr fun c _ => ?_
  by_cases writes : c.part? = some part
  · simp [writes]
  · simp [writes, ofPart c writes]

/-- Calls that are in the same order for each part leave the same builder, whatever their order
among the parts and wherever the job is built between them. -/
theorem run_of_writing {b : JobBuilder} {calls calls' : List Call}
    (same : ∀ part, writing part calls = writing part calls') : b.run calls = b.run calls' := by
  have agree {β : Type} {f : Call → Option β} (part : Part)
      (ofPart : ∀ c, c.part? ≠ some part → f c = none) :
      (calls.filter Call.isTaken).filterMap f = (calls'.filter Call.isTaken).filterMap f := by
    rw [filterMap_writing ofPart calls, same part, ← filterMap_writing ofPart calls']
  have platform := agree (f := Call.platform?) .platform fun c => by cases c <;> simp [Call.part?]
  have steps := agree (f := Call.step?) .steps fun c => by cases c <;> simp [Call.part?]
  have axes := agree (f := Call.axis?) .axes fun c => by cases c <;> simp [Call.part?]
  have env := agree (f := Call.env?) .env fun c => by cases c <;> simp [Call.part?]
  have failFast := agree (f := Call.failFast?) .failFast fun c => by cases c <;> simp [Call.part?]
  have cache := agree (f := Call.cache?) .cache fun c => by cases c <;> simp [Call.part?]
  simp only [run_eq, lastCache, platform, steps, axes, env, failFast, cache]

def Call.isBuild : Call → Bool
  | .build => true
  | _ => false

theorem writing_without_build (part : Part) (calls : List Call) :
    writing part (calls.filter fun c => !c.isBuild) = writing part calls := by
  simp only [writing, List.filter_filter]
  refine List.filter_congr fun c _ => ?_
  cases c <;> simp [Call.isBuild, Call.part?]

/-- A run builds the job that its calls declare, where they say a platform and a step. Building on the
way changes nothing, and the order of calls counts only among those that write the same part. -/
theorem builds_declared (name : Value) (calls calls' : List Call) :
    ((run { name } calls).build =
      let d := declaration name (calls.filter Call.isTaken)
      if d.platform.isNull then .error (.invalid { complaint := .platformUnset, job := name })
      else if d.steps.isEmpty then .error (.invalid { complaint := .stepsUnset, job := name })
      else d.job) ∧
    (run { name } (calls.filter fun c => !c.isBuild)).build = (run { name } calls).build ∧
    ((∀ part, writing part calls = writing part calls') →
      (run { name } calls).build = (run { name } calls').build) := by
  refine ⟨build_run name calls, ?_, fun same => ?_⟩
  · rw [run_of_writing fun part => writing_without_build part calls]
  · rw [run_of_writing same]

def make : Call := .defineStep (.text "make") (.text "make all") .null .null

def lint : Call := .defineStep (.text "lint") (.text "make lint") .null .null

/-- Calls that build too early, repeat a variable and name the platform last. -/
def eager : List Call :=
  [.build, .withEnv [("A", .int 1)], make, .withAxis (.text "v") [.int 1, .bool true], lint,
    .withEnv [("A", .null), ("B", .int 2)], .runsOn (.text "linux")]

/-- The same calls part by part. -/
def tidy : List Call :=
  [.runsOn (.text "linux"), make, lint, .withAxis (.text "v") [.int 1, .bool true],
    .withEnv [("A", .int 1)], .withEnv [("A", .null), ("B", .int 2)]]

theorem eager_builds_declared :
    (run { name := .text "t" } eager).build = (declaration (.text "t") eager).job ∧
      (run { name := .text "t" } eager).build = (run { name := .text "t" } tidy).build ∧
      (declaration (.text "t") eager).job.isOk = true := by
  obtain ⟨declared, -, reordered⟩ := builds_declared (.text "t") eager tidy
  have taken : eager.filter Call.isTaken = eager := List.filter_eq_self.mpr (by decide +kernel)
  have placed : (declaration (.text "t") eager).platform.isNull = false := rfl
  have stepped : (declaration (.text "t") eager).steps.isEmpty = false := rfl
  simp only [taken, placed, stepped, Bool.false_eq_true, if_false] at declared
  refine ⟨declared, reordered fun part => ?_, by decide +kernel⟩
  cases part <;> rfl

/-- Calls that take the platform back. -/
def unplaced : List Call := [make, .runsOn .null]

/-- Calls of which one is refused for a number too long to print. -/
def overlong : List Call := [make, .runsOn (.text "linux"), .withEnv [("A", WorkflowForm.longNumber)]]

/-- A platform that is null counts as none while a job is built, and a call that is refused sets no
variable; a declaration takes the one and is refused for the other. -/
theorem unplaced_builds_otherwise :
    WorkflowForm.kindOf (run { name := .text "t" } unplaced).build = some "ValidationError" ∧
      (declaration (.text "t") unplaced).job.isOk = true ∧
      (run { name := .text "t" } overlong).build.isOk = true ∧
      WorkflowForm.kindOf (declaration (.text "t") overlong).job = some "ValueError" := by
  refine ⟨?_, ?_, ?_, ?_⟩
  all_goals decide +kernel

end JobBuilder

end JobMatrix
