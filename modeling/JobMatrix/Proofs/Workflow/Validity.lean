import JobMatrix.JobBuilder
import JobMatrix.Plan
import JobMatrix.Revision
import JobMatrix.Proofs.CacheKey.Scopes
import JobMatrix.Proofs.Form.Declared
import JobMatrix.Proofs.Workflow.Checks
import JobMatrix.Proofs.Workflow.Scripts

set_option autoImplicit false

/-!
Every workflow is valid, whichever way it was made, and making one is refused for nothing but a job
that does not fit. So the instances, the keys and the plan of a workflow have one entry for each of
its jobs, and none of them is lost where they are kept by the names of the jobs.
-/

namespace JobMatrix

/-! ### Ways to a job -/

inductive Job.Obtained : Job → Prop where
  | assembled {name platform : Value} {steps : List Step} {matrix : Option MatrixSource}
      {env : List (Value × Value)} {failFast : Value} {cache : Option CacheSpec} {j : Job} :
      Job.assemble name platform steps matrix env failFast cache = .ok j → Obtained j
  | declared {d : Declaration} {j : Job} : d.job = .ok j → Obtained j
  | built {b : JobBuilder} {j : Job} : b.build = .ok j → Obtained j
  | revised {k : Job} {changes : Entries Value} {j : Job} : k.revised changes = .ok j → Obtained j

theorem Job.constructed_of_make {name platform : Value} {steps : List Step}
    {matrix : Option Matrix} {env : List (Value × Value)} {failFast : Value}
    {cache : Option CacheSpec} {j : Job}
    (made : make name platform steps matrix env failFast cache = .ok j) : j.Constructed :=
  ⟨name, platform, steps, matrix, env, failFast, cache, made⟩

theorem Job.constructed_of_assemble {name platform : Value} {steps : List Step}
    {matrix : Option MatrixSource} {env : List (Value × Value)} {failFast : Value}
    {cache : Option CacheSpec} {j : Job}
    (made : assemble name platform steps matrix env failFast cache = .ok j) : j.Constructed := by
  unfold assemble at made
  split at made
  next => exact constructed_of_make made
  next => exact constructed_of_make made
  next =>
    obtain ⟨_, -, none⟩ := bind_eq_ok.mp made
    simp at none

theorem Declaration.constructed {d : Declaration} {j : Job} (made : d.job = .ok j) :
    j.Constructed := by
  unfold Declaration.job at made
  cases none : d.steps.isEmpty with
  | true => simp [none] at made
  | false =>
    simp only [none, Bool.false_eq_true, if_false, bind_eq_ok] at made
    obtain ⟨matrix, -, cache, -, made⟩ := made
    exact Job.constructed_of_make made

theorem JobBuilder.constructed {b : JobBuilder} {j : Job} (made : b.build = .ok j) :
    j.Constructed := by
  unfold JobBuilder.build at made
  cases unset : b.platform.isNull with
  | true => simp [unset] at made
  | false =>
    cases none : b.steps.isEmpty with
    | true => simp [unset, none] at made
    | false =>
      simp only [unset, none, Bool.false_eq_true, if_false] at made
      split at made
      next => exact Job.constructed_of_make made
      next =>
        obtain ⟨matrix, -, made⟩ := bind_eq_ok.mp made
        exact Job.constructed_of_make made

theorem Job.constructed_of_revised {k j : Job} {changes : Entries Value}
    (made : k.revised changes = .ok j) : j.Constructed := by
  obtain ⟨fields, -, made⟩ := bind_eq_ok.mp made
  obtain ⟨name, -, made⟩ := bind_eq_ok.mp made
  obtain ⟨foreign, -, made⟩ := bind_eq_ok.mp made
  obtain ⟨env, -, made⟩ := bind_eq_ok.mp made
  obtain ⟨texts, -, made⟩ := bind_eq_ok.mp made
  cases foreign with
  | true => simp at made
  | false =>
    obtain ⟨l, assembled, made⟩ := bind_eq_ok.mp made
    split at made
    next =>
      obtain rfl := pure_eq_ok.mp made
      exact constructed_of_assemble assembled
    next =>
      obtain rfl := pure_eq_ok.mp made
      exact constructed_of_assemble assembled
    next => simp at made

theorem Job.Obtained.constructed {j : Job} (obtained : j.Obtained) : j.Constructed := by
  cases obtained with
  | assembled made => exact constructed_of_assemble made
  | declared made => exact Declaration.constructed made
  | built made => exact JobBuilder.constructed made
  | revised made => exact constructed_of_revised made

theorem Job.Constructed.obtained {j : Job} (made : j.Constructed) : j.Obtained := by
  obtain ⟨name, platform, steps, matrix, env, failFast, cache, made⟩ := made
  have assembled : assemble name platform steps (matrix.map .ready) env failFast cache = .ok j := by
    cases matrix <;> exact made
  exact .assembled assembled

namespace Workflow

variable {settings : Settings}

/-! ### Ways to a workflow -/

/-- A workflow is made with labels on top of those known under the settings. What a script defines
has been made with labels of its own, which are those of `given`. -/
inductive Obtained (settings : Settings) : List Text → Workflow → Prop where
  | made {name triggers : Value} {jobs : List Job} {extra : List Text} {w : Workflow} :
      (∀ j ∈ jobs, j.Obtained) → make settings name jobs triggers extra = .ok w →
      Obtained settings extra w
  | declared {name triggers labels : Value} {jobs : List Job} {extra : List Text} {w : Workflow} :
      (∀ j ∈ jobs, j.Obtained) → labelsOf labels = .ok extra →
      declare settings name jobs triggers labels = .ok w → Obtained settings extra w
  | document {t : FileTree} {path : Path} {extra : List Text} {w : Workflow} :
      Load.document settings t path extra = .ok w → Obtained settings extra w
  | script {t : FileTree} {path : Path} {extra : List Text} {w : Workflow}
      (given : Workflow → List Text) :
      (∀ v, t.Defines (.workflow v) → Obtained settings (given v) v) →
      (∀ js, t.Defines (.jobs js) → ∀ j ∈ js, j.Obtained) →
      Load.script settings t path extra = .ok w → Obtained settings extra w
  | revised {v w : Workflow} {extra : List Text} {changes : Entries Value} :
      Obtained settings extra v → v.revised settings changes = .ok w → Obtained settings [] w

structure Valid (settings : Settings) (extra : List Text) (w : Workflow) : Prop where
  jobs : ∀ j ∈ w.jobs, j.WellFormed
  fit : Fit w.platforms w.jobs
  labels : Platform.known settings extra ⊆ w.platforms

theorem Valid.of_make {name triggers : Value} {jobs : List Job} {extra labels : List Text}
    {w : Workflow} (each : ∀ j ∈ jobs, j.WellFormed)
    (made : make settings name jobs triggers labels = .ok w)
    (accepted : Platform.known settings extra ⊆ Platform.known settings labels) :
    w.Valid settings extra := by
  obtain ⟨fit, rfl⟩ := make_eq_ok.mp made
  exact ⟨each, fit, accepted⟩

theorem Valid.of_adopts {stem : Text} {extra : List Text} {v : Defined} {w : Workflow}
    {given : Workflow → List Text} (adopts : Load.Adopts settings stem extra v w)
    (workflows : ∀ u, v = .workflow u → u.Valid settings (given u))
    (jobs : ∀ js, v = .jobs js → ∀ j ∈ js, j.WellFormed) : w.Valid settings extra := by
  cases adopts with
  | kept =>
    have old := workflows _ rfl
    exact ⟨old.jobs, old.fit, fun label member => old.labels (known_mono (List.nil_subset _) member)⟩
  | widened some made => exact .of_make (workflows _ rfl).jobs made (known_mono (List.subset_append_right _ _))
  | gathered made => exact .of_make (jobs _ rfl) made fun _ => id

theorem Valid.of_form {form : WorkflowForm} {path stem : Text} {extra : List Text} {w : Workflow}
    (made : form.workflow settings path stem extra = .ok w) : w.Valid settings extra := by
  obtain ⟨each, triggers, -, made⟩ := WorkflowForm.workflow_eq_ok.mp made
  refine .of_make (fun j member => ?_) made fun _ => id
  obtain ⟨f, -, madeJob⟩ := exists_mem_left_of_forall₂ each member
  exact madeJob.sound

theorem Obtained.valid {extra : List Text} {w : Workflow} (obtained : Obtained settings extra w) :
    w.Valid settings extra := by
  induction obtained with
  | made each made =>
    exact .of_make (fun j member => (each j member).constructed.wellFormed) made fun _ => id
  | declared each told made =>
    simp only [declare, bind_eq_ok] at made
    obtain ⟨triggers, -, labels, told', made⟩ := made
    obtain rfl := Except.ok.inj (told.symm.trans told')
    exact .of_make (fun j member => (each j member).constructed.wellFormed) made fun _ => id
  | document loaded =>
    obtain ⟨full, bytes, form, -, -, -, made⟩ := Load.document_eq_ok loaded
    exact .of_form made
  | script given _ jobs loaded ih =>
    obtain ⟨full, v, here, adopts⟩ := Load.script_eq_ok.mp loaded
    have defines := adopts.defines here
    refine .of_adopts adopts (fun u same => ih u (same ▸ defines)) fun js same j member => ?_
    exact (jobs js (same ▸ defines) j member).constructed.wellFormed
  | @revised v w extra changes _ made old =>
    obtain ⟨fields, -, made⟩ := bind_eq_ok.mp made
    obtain ⟨foreign, -, made⟩ := bind_eq_ok.mp made
    obtain ⟨labels, -, made⟩ := bind_eq_ok.mp made
    cases foreign with
    | true => simp at made
    | false =>
      refine .of_make (fun j member => ?_) made (known_mono (List.nil_subset labels))
      split at member
      next => simp at member
      next => exact old.jobs j member

/-! ### What is made of a workflow -/

/-- The entries are the instances of the jobs, one entry for each job and under its name. -/
structure ListsInstances (w : Workflow) (entries : Entries (List Instance)) : Prop where
  names : entries.keys = w.jobs.map Job.name
  distinct : entries.keys.Nodup
  instances : ∀ j ∈ w.jobs, entries.get? j.name = some j.instances
  inhabited : ∀ j ∈ w.jobs, j.instances ≠ []
  cells : ∀ j ∈ w.jobs, ∀ i ∈ j.instances,
    i.cells.keys = j.axes.map Axis.name ∧ i.cells.keys.Nodup

theorem keys_cells {j : Job} (sound : j.WellFormed) {i : Instance} (member : i ∈ j.instances) :
    i.cells.keys = j.axes.map Axis.name := by
  have chosen : i.assignment ∈ Job.combinations j.axes := by
    rw [← Job.assignments_instances]
    exact List.mem_map_of_mem member
  have keys := Job.keys_of_mem_combinations chosen
  rw [Instance.cells, Entries.ofPairs_eq_self (keys ▸ sound.axes.distinct), keys]

theorem Valid.listsInstances {extra : List Text} {w : Workflow} (valid : w.Valid settings extra)
    {entries : Entries (List Instance)}
    (each : List.Forall₂ (fun j e => e.1 = j.name ∧ e.2 = j.instances) w.jobs entries) :
    w.ListsInstances entries := by
  have names : entries.keys = w.jobs.map Job.name :=
    (map_eq_map_of_forall₂ each fun _ _ here => here.1.symm).symm
  have distinct : entries.keys.Nodup := names ▸ valid.fit.distinct
  refine ⟨names, distinct, fun j member => ?_, fun j member none => ?_, fun j member i inJob => ?_⟩
  · obtain ⟨⟨name, instances⟩, inEntries, rfl, rfl⟩ := exists_mem_right_of_forall₂ each member
    exact Entries.get?_eq_some_of_mem distinct inEntries
  · have positive := (valid.jobs j member).sizes_positive
    rw [← Job.length_instances, none] at positive
    simp at positive
  · have keys := keys_cells (valid.jobs j member) inJob
    exact ⟨keys, keys ▸ (valid.jobs j member).axes.distinct⟩

theorem Valid.listsInstances_instances {extra : List Text} {w : Workflow}
    (valid : w.Valid settings extra) : w.ListsInstances w.instances := by
  have distinct : Entries.keys (w.jobs.map fun j => (j.name, j.instances)) =
      w.jobs.map Job.name := by simp [Entries.keys]
  rw [Workflow.instances, Entries.ofPairs_eq_self (distinct ▸ valid.fit.distinct)]
  apply valid.listsInstances
  rw [List.forall₂_map_right_iff, List.forall₂_same]
  exact fun j _ => ⟨rfl, rfl⟩

theorem Valid.listsInstances_cacheKeys {extra : List Text} {w : Workflow}
    (valid : w.Valid settings extra) {scope : Option Text}
    {entries : Entries (List (Instance × CacheKey))} (h : w.cacheKeys scope = .ok entries) :
    w.ListsInstances (entries.map fun e => (e.1, e.2.map Prod.fst)) := by
  apply valid.listsInstances
  rw [List.forall₂_map_right_iff]
  exact (cacheKeys_eq_ok.mp h).imp fun j e keyed => ⟨keyed.1, j.instances_of_cacheKeys keyed.2⟩

theorem Valid.listsInstances_plan {extra : List Text} {w : Workflow}
    (valid : w.Valid settings extra) {scope : Option Text} {plan : Plan}
    (h : w.plan settings scope = .ok plan) :
    w.ListsInstances (plan.jobs.map fun e => (e.1, e.2.map PlannedInstance.inst)) := by
  have keyed := valid.listsInstances_cacheKeys (cacheKeys_of_plan h)
  simpa only [Plan.cacheKeys, List.map_map, Function.comp_def] using keyed

/-- Workflows are valid whichever way they were made, and what is made of them has all their jobs.
Jobs are refused when they do not fit, for the first that does not. -/
theorem validation_exact (settings : Settings) :
    (∀ extra w, Obtained settings extra w →
      w.Valid settings extra ∧ w.ListsInstances w.instances ∧
      (∀ scope entries, w.cacheKeys scope = .ok entries →
        w.ListsInstances (entries.map fun e => (e.1, e.2.map Prod.fst))) ∧
      ∀ scope plan, w.plan settings scope = .ok plan →
        w.ListsInstances (plan.jobs.map fun e => (e.1, e.2.map PlannedInstance.inst))) ∧
    ∀ name jobs triggers extra,
      (∀ w, make settings name jobs triggers extra = .ok w ↔
        Fit (Platform.known settings extra) jobs ∧
          w = ⟨name, jobs, triggers, Platform.known settings extra⟩) ∧
      ∀ f, make settings name jobs triggers extra = .error f ↔
        ∃ before j, FirstMisfit (Platform.known settings extra) jobs before j ∧
          Rejects (Platform.known settings extra) before j f := by
  constructor
  · intro extra w obtained
    have valid := obtained.valid
    exact ⟨valid, valid.listsInstances_instances, fun _ _ h => valid.listsInstances_cacheKeys h,
      fun _ _ h => valid.listsInstances_plan h⟩
  · intro name jobs triggers extra
    exact ⟨fun w => make_eq_ok, fun f => make_eq_error⟩

/-- A directory with a script that defines a workflow. -/
def onlyScript (w : Workflow) : FileTree where
  entries := [([Text.ofString "w.py"], .script (.ok [("WORKFLOW", .value (.workflow w))]))]

theorem defines_onlyScript {w : Workflow} {v : Defined} (defines : (onlyScript w).Defines v) :
    v = .workflow w := by
  obtain ⟨place, globals, inTree, name, definition, member, gives⟩ := defines
  obtain ⟨-, rfl⟩ : place = _ ∧ globals = _ := by simpa [onlyScript] using inTree
  obtain ⟨-, rfl⟩ : name = _ ∧ definition = _ := by simpa using member
  cases gives
  rfl

theorem twins_obtained : Obtained {} [] twins := by
  have made : make {} twins.name twins.jobs (.map []) [] = .ok twins := rfl
  exact .made (fun j member => (twins_constructed.jobs j member).obtained) made

/-- The workflow with one label more. -/
def widenedTwins : Workflow :=
  { twins with platforms := Platform.known {} (twins.platforms ++ [Text.ofString "gpu"]) }

theorem script_twins : Load.script {} (onlyScript twins) (.ofText "w.py") [Text.ofString "gpu"] =
    .ok widenedTwins := rfl

theorem widenedTwins_obtained : Obtained {} [Text.ofString "gpu"] widenedTwins := by
  refine .script (fun _ => []) (fun v defines => ?_) (fun js defines => ?_) script_twins
  · obtain rfl := Defined.workflow.inj (defines_onlyScript defines)
    exact twins_obtained
  · cases defines_onlyScript defines

theorem widenedTwins_valid :
    Obtained {} [Text.ofString "gpu"] widenedTwins ∧
      widenedTwins.Valid {} [Text.ofString "gpu"] ∧
      widenedTwins.ListsInstances widenedTwins.instances ∧
      (∃ entries, widenedTwins.cacheKeys none = .ok entries ∧
        widenedTwins.ListsInstances (entries.map fun e => (e.1, e.2.map Prod.fst))) ∧
      ∃ plan, widenedTwins.plan {} none = .ok plan ∧
        widenedTwins.ListsInstances
          (plan.jobs.map fun e => (e.1, e.2.map PlannedInstance.inst)) := by
  obtain ⟨valid, instances, keys, plans⟩ :=
    (validation_exact {}).1 [Text.ofString "gpu"] widenedTwins widenedTwins_obtained
  exact ⟨widenedTwins_obtained, valid, instances, ⟨_, rfl, keys none _ rfl⟩, _, rfl,
    plans none _ rfl⟩

end Workflow

/-! ### Platforms that are no labels -/

/-- A job whose platform is a value of any kind. -/
def Job.onPlatform (platform : Value) : Job where
  name := "build"
  platform := platform
  steps := twoAxes.steps

theorem Job.onPlatform_obtained (platform : Value) : (onPlatform platform).Obtained := by
  apply Constructed.obtained
  exact ⟨.text ("build" : String), platform, twoAxes.steps, none, [], .bool true, none, rfl⟩

namespace Workflow

theorem not_fit_onPlatform {platforms : List Text} {platform : Value}
    (other : ∀ label, platform ≠ .text label) : ¬Fit platforms [.onPlatform platform] := by
  intro fit
  obtain ⟨label, -, runs⟩ := fit.accepted _ List.mem_cons_self
  exact other label runs

/-- The job on this platform does not fit, and a workflow of it is refused with this kind. -/
def RefusedAs (platform : Value) (kind : String) : Prop :=
  (Job.onPlatform platform).Obtained ∧ ¬Fit (Platform.known {} []) [.onPlatform platform] ∧
    WorkflowForm.kindOf (make {} (.text "ci") [.onPlatform platform] (.map []) []) = some kind

/-- A list cannot be looked for among the labels, and a number that is too long cannot be shown in a
complaint. -/
theorem platforms_refused_otherwise :
    RefusedAs (.list [.text "linux"]) "TypeError" ∧
      RefusedAs WorkflowForm.longNumber "ValueError" := by
  refine ⟨⟨Job.onPlatform_obtained _, not_fit_onPlatform fun label => ?_, ?_⟩,
    Job.onPlatform_obtained _, not_fit_onPlatform fun label => ?_, ?_⟩
  · exact nofun
  · decide +kernel
  · exact nofun
  · decide +kernel

end Workflow

end JobMatrix
