import JobMatrix.Proofs.Workflow.Validity

set_option autoImplicit false

/-!
Accepting more labels. What loads still loads when more labels are accepted, and with the same jobs;
only a job that a document gives several labels to can run on another of them, which stands at an
earlier place then.
-/

namespace JobMatrix

/-- The second label is the first one, or stands before it among the labels of the runner. -/
inductive RunnerForm.Advances : RunnerForm → Text → Text → Prop where
  | same {r : RunnerForm} {label : Text} : Advances r label label
  | earlier {labels : List Text} {label other : Text} {m n : Nat} : m ≤ n →
      labels[n]? = some label → labels[m]? = some other → Advances (.labels labels) label other

/-- The second job is the first one, on the label that the runner has moved to. -/
def RunnerForm.Moves (r : RunnerForm) (j k : Job) : Prop :=
  ∃ label other, j.platform = .text label ∧ k = { j with platform := .text other } ∧
    r.Advances label other

namespace JobForm

variable {known more labels : List Text} {runner : RunnerForm} {label other : Text}

/-! ### The label of a runner -/

/-- With a weaker condition the search ends no later. -/
theorem find?_earlier {α : Type} {p q : α → Bool} {xs : List α} {x : α}
    (weaker : ∀ x, p x = true → q x = true) (found : xs.find? p = some x) :
    ∃ (y : α) (m n : Nat), xs.find? q = some y ∧ m ≤ n ∧ xs[n]? = some x ∧ xs[m]? = some y := by
  induction xs with
  | nil => simp at found
  | cons z xs ih =>
    by_cases here : q z = true
    · obtain ⟨n, there⟩ := List.mem_iff_getElem?.mp (List.mem_of_find?_eq_some found)
      exact ⟨z, 0, n, List.find?_cons_of_pos here, Nat.zero_le n, there, rfl⟩
    · have other : ¬p z = true := fun passed => here (weaker z passed)
      rw [List.find?_cons_of_neg other] at found
      obtain ⟨y, m, n, earlier, less, there, here'⟩ := ih found
      exact ⟨y, m + 1, n + 1, by rw [List.find?_cons_of_neg here, earlier],
        Nat.succ_le_succ less, there, here'⟩

theorem platform_of_find? (found : labels.find? known.contains = some label) :
    platform known (.labels labels) = label := by
  simp only [platform, found, Option.some_or, Option.getD_some]

theorem mem_of_find? (found : labels.find? known.contains = some label) : label ∈ known := by
  simpa using List.find?_some found

theorem platform_of_none (none : ∀ label ∈ labels, label ∉ known)
    (accepted : platform known (.labels labels) ∈ known) : labels = [] := by
  cases labels with
  | nil => rfl
  | cons label labels =>
    have unfound : (label :: labels).find? known.contains = .none := by simpa using none
    simp only [platform, unfound, Option.none_or, List.head?_cons, Option.getD_some] at accepted
    exact absurd accepted (none label List.mem_cons_self)

/-- An accepted label stays or gives way to an earlier one, which is accepted too. -/
theorem platform_advances (accepted : platform known runner ∈ known) (wider : known ⊆ more) :
    platform more runner ∈ more ∧ runner.Advances (platform known runner) (platform more runner) := by
  cases runner with
  | label label => exact ⟨wider accepted, .same⟩
  | labels labels =>
    cases found : labels.find? known.contains with
    | none =>
      have unknown : ∀ label ∈ labels, label ∉ known := by simpa using found
      obtain rfl := platform_of_none unknown accepted
      exact ⟨wider accepted, .same⟩
    | some label =>
      have weaker : ∀ l, known.contains l = true → more.contains l = true := by
        intro l
        simpa using @wider l
      obtain ⟨other, m, n, found', less, there, here⟩ := find?_earlier weaker found
      rw [platform_of_find? found, platform_of_find? found']
      exact ⟨mem_of_find? found', .earlier less there here⟩

end JobForm

namespace Workflow

theorem Constructed.fit {w : Workflow} (made : w.Constructed) : Fit w.platforms w.jobs := by
  obtain ⟨_, _, _, _, _, -, made⟩ := made
  obtain ⟨fit, rfl⟩ := make_eq_ok.mp made
  exact fit

/-- A workflow that exists can be made anew with any labels on top of its own. -/
theorem Constructed.widen {w : Workflow} (made : w.Constructed) (settings : Settings)
    (extra : List Text) : w.widen settings extra =
      .ok { w with platforms := Platform.known settings (w.platforms ++ extra) } := by
  refine make_eq_ok.mpr ⟨made.fit.mono fun label member => ?_, rfl⟩
  simp [Platform.known, member]

end Workflow

/-! ### Documents -/

theorem WorkflowForm.exists_moved {form : WorkflowForm} {path : Text} {known more : List Text}
    {jobs : List Job} (wider : known ⊆ more) (fit : Workflow.Fit known jobs)
    (made : List.Forall₂ (fun f j => f.2.Made path f.1 known j) form.jobs jobs) :
    ∃ moved, List.Forall₂ (fun f j => f.2.Made path f.1 more j) form.jobs moved ∧
      List.Forall₂ (fun j k => ∃ f ∈ form.jobs, f.1 = j.name ∧ f.2.runner.Moves j k ∧
        ∃ label ∈ more, k.platform = .text label) jobs moved := by
  refine exists_forall₂ made fun f j member madeJob => ?_
  obtain ⟨label, accepted, isLabel⟩ := fit.accepted j member
  obtain rfl := Value.text.inj (isLabel.symm.trans madeJob.runs)
  obtain ⟨accepted, advances⟩ := JobForm.platform_advances accepted wider
  exact ⟨_, madeJob.relabelled more, madeJob.named.symm, ⟨_, _, madeJob.runs, rfl, advances⟩, _,
    accepted, rfl⟩

/-- The second workflow has the jobs of the first one, each on a label that the form allows. -/
structure WorkflowForm.Relabels (form : WorkflowForm) (w v : Workflow) : Prop where
  name : v.name = w.name
  triggers : v.triggers = w.triggers
  jobs : List.Forall₂ (fun j k => ∃ f ∈ form.jobs, f.1 = j.name ∧ f.2.runner.Moves j k)
    w.jobs v.jobs

theorem WorkflowForm.workflow_widened {form : WorkflowForm} {settings : Settings} {path stem : Text}
    {fewer more : List Text} {w : Workflow} (contained : fewer ⊆ more)
    (made : form.workflow settings path stem fewer = .ok w) :
    ∃ v, form.workflow settings path stem more = .ok v ∧ form.Relabels w v := by
  obtain ⟨each, triggers, told, made⟩ := workflow_eq_ok.mp made
  obtain ⟨fit, same⟩ := Workflow.make_eq_ok.mp made
  obtain ⟨moved, eachMoved, pairs⟩ := exists_moved (Workflow.known_mono contained) fit each
  have names : w.jobs.map Job.name = moved.map Job.name := by
    apply map_eq_map_of_forall₂ pairs
    rintro j k ⟨f, -, -, ⟨label, other, -, rfl, -⟩, -⟩
    rfl
  have movedFit : Workflow.Fit (Platform.known settings more) moved := by
    refine ⟨names ▸ fit.distinct, fun k member => ?_⟩
    obtain ⟨j, -, f, -, -, -, accepted⟩ := exists_mem_left_of_forall₂ pairs member
    exact accepted
  refine ⟨{ w with jobs := moved, platforms := Platform.known settings more },
    workflow_eq_ok.mpr ⟨eachMoved, triggers, told, ?_⟩, rfl, rfl, pairs.imp ?_⟩
  · rw [Workflow.make_eq_ok, congrArg Workflow.name same, congrArg Workflow.triggers same]
    exact ⟨movedFit, rfl⟩
  · rintro j k ⟨f, member, named, moves, -⟩
    exact ⟨f, member, named, moves⟩

namespace Load

variable {settings : Settings} {t : FileTree} {path full : Path} {fewer more : List Text}
  {w : Workflow}

/-- The path leads to a document of this form. -/
def Reads (t : FileTree) (path : Path) (form : WorkflowForm) : Prop :=
  ∃ full bytes, path.expandHome t.homes = .ok full ∧ t.lookup full = .ok (some (.file bytes)) ∧
    readForm full.text bytes = .ok form

theorem document_widened (contained : fewer ⊆ more)
    (loaded : document settings t path fewer = .ok w) :
    ∃ v form, document settings t path more = .ok v ∧ Reads t path form ∧ form.Relabels w v := by
  obtain ⟨full, bytes, form, expanded, found, read, made⟩ := document_eq_ok loaded
  obtain ⟨v, made, relabels⟩ := form.workflow_widened contained made
  have again : document settings t path more = form.workflow settings full.text full.stem more :=
    document_of_form expanded found read more
  exact ⟨v, form, again.trans made, ⟨full, bytes, expanded, found, read⟩, relabels⟩

/-! ### Scripts -/

theorem adopts_widened {stem : Text} {v : Defined} (contained : fewer ⊆ more)
    (existing : ∀ u, v = .workflow u → u.Constructed) (adopts : Adopts settings stem fewer v w) :
    ∃ labels, Adopts settings stem more v { w with platforms := labels } := by
  cases adopts with
  | @kept u =>
    -- Only without further labels is the workflow of the script handed on as it is.
    by_cases none : more = []
    · subst none
      exact ⟨_, .kept⟩
    · exact ⟨_, .widened none ((existing _ rfl).widen settings more)⟩
  | @widened _ u _ some made =>
    have old := existing u rfl
    obtain rfl := Except.ok.inj ((old.widen settings fewer).symm.trans made)
    refine ⟨_, .widened ?_ (old.widen settings more)⟩
    rintro rfl
    exact some (List.subset_nil.mp contained)
  | gathered made =>
    obtain ⟨fit, rfl⟩ := Workflow.make_eq_ok.mp made
    have wider := fit.mono (Workflow.known_mono contained)
    exact ⟨_, .gathered (Workflow.make_eq_ok.mpr ⟨wider, rfl⟩)⟩

theorem script_widened (contained : fewer ⊆ more)
    (existing : ∀ u, t.Defines (.workflow u) → u.Constructed)
    (loaded : script settings t path fewer = .ok w) :
    ∃ labels, script settings t path more = .ok { w with platforms := labels } := by
  obtain ⟨full, v, here, adopts⟩ := script_eq_ok.mp loaded
  have defines := adopts.defines here
  obtain ⟨labels, adopts⟩ := adopts_widened contained (fun u same => existing u (same ▸ defines))
    adopts
  exact ⟨labels, script_eq_ok.mpr ⟨full, v, here, adopts⟩⟩

/-- What loads still loads when more labels are accepted, and workflows that are there can be made
anew with any labels. -/
theorem widening_keeps_workflows (settings : Settings) (t : FileTree) (path : Path)
    {fewer more : List Text} (contained : fewer ⊆ more)
    (existing : ∀ u, t.Defines (.workflow u) → u.Constructed) :
    (∀ w, document settings t path fewer = .ok w →
      ∃ v form, document settings t path more = .ok v ∧ Reads t path form ∧ form.Relabels w v) ∧
    (∀ w, script settings t path fewer = .ok w →
      ∃ labels, script settings t path more = .ok { w with platforms := labels }) ∧
    (∀ w, load settings t path fewer = .ok w → ∃ v, load settings t path more = .ok v ∧
      ((∃ labels, v = { w with platforms := labels }) ∨
        isDocument path = true ∧ ∃ form, Reads t path form ∧ form.Relabels w v)) ∧
    ∀ w : Workflow, w.Constructed → w.widen settings more =
      .ok { w with platforms := Platform.known settings (w.platforms ++ more) } := by
  refine ⟨fun w loaded => document_widened contained loaded, fun w loaded => ?_, fun w loaded => ?_,
    fun w made => made.widen settings more⟩
  · exact script_widened contained existing loaded
  · unfold load at loaded ⊢
    by_cases isDocument : isDocument path = true
    · rw [if_pos isDocument] at loaded ⊢
      obtain ⟨v, form, loaded, reads, relabels⟩ := document_widened contained loaded
      exact ⟨v, loaded, .inr ⟨isDocument, form, reads, relabels⟩⟩
    · rw [if_neg isDocument] at loaded ⊢
      by_cases isScript : isScript path = true
      · rw [if_pos isScript] at loaded ⊢
        obtain ⟨labels, loaded⟩ := script_widened contained existing loaded
        exact ⟨_, loaded, .inl ⟨labels, rfl⟩⟩
      · rw [if_neg isScript] at loaded
        cases loaded

theorem not_defines_onlyFile {bytes : List UInt8} {v : Defined} : ¬(onlyFile bytes).Defines v := by
  rintro ⟨place, globals, inTree, -⟩
  simp [onlyFile] at inTree

def runsOn (form : WorkflowForm) (labels : List Text) (platform : Text) : Bool :=
  (form.workflow {} "w.yml" "w" labels).toOption.any fun w =>
    w.jobs.all fun j => Workflow.isLabel [platform] j.platform

theorem exists_of_runsOn {form : WorkflowForm} {labels : List Text} {platform : Text}
    (runs : runsOn form labels platform = true) :
    ∃ w, form.workflow {} "w.yml" "w" labels = .ok w ∧ ∀ j ∈ w.jobs, j.platform = .text platform := by
  obtain ⟨w, made, runs⟩ := exists_of_any runs
  refine ⟨w, made, fun j member => ?_⟩
  obtain ⟨label, known, same⟩ := Workflow.isLabel_eq_true.mp (List.all_eq_true.mp runs j member)
  rw [same, List.mem_singleton.mp known]

theorem sample_runsOn : (readForm "w.yml" sample).toOption.any (fun form =>
    runsOn form ["edge"] "edge" && runsOn form ["edge", "x"] "x") = true := by
  decide +kernel

/-- With a label more, the document runs its job on another one, and the script on the same. -/
theorem sample_twins_widened :
    (∃ w v form, document {} (onlyFile sample) (.ofText "w.yml") ["edge"] = .ok w ∧
      document {} (onlyFile sample) (.ofText "w.yml") ["edge", "x"] = .ok v ∧
      WorkflowForm.Relabels form w v ∧ (∀ j ∈ w.jobs, j.platform = .text "edge") ∧
      ∀ j ∈ v.jobs, j.platform = .text "x") ∧
    ∃ labels, script {} (Workflow.onlyScript Workflow.twins) (.ofText "w.py") ["edge", "x"] =
      .ok { Workflow.twins with platforms := labels } := by
  have wider : [Text.ofString "edge"] ⊆ [Text.ofString "edge", Text.ofString "x"] := by simp
  constructor
  · obtain ⟨form, read, checked⟩ := exists_of_any sample_runsOn
    obtain ⟨fewer, more⟩ := (Bool.and_eq_true _ _).mp checked
    obtain ⟨w, made, runs⟩ := exists_of_runsOn fewer
    obtain ⟨v, madeMore, moved⟩ := exists_of_runsOn more
    have loaded := (document_onlyFile read {} ["edge"]).trans made
    have loadedMore := (document_onlyFile read {} ["edge", "x"]).trans madeMore
    obtain ⟨u, form, again, -, relabels⟩ := (widening_keeps_workflows {} (onlyFile sample)
      (.ofText "w.yml") wider fun u defines => absurd defines not_defines_onlyFile).1 w loaded
    obtain rfl := Except.ok.inj (again.symm.trans loadedMore)
    exact ⟨w, u, form, loaded, loadedMore, relabels, runs, moved⟩
  · have loaded : script {} (Workflow.onlyScript Workflow.twins) (.ofText "w.py")
        [Text.ofString "edge"] = .ok { Workflow.twins with
          platforms := Platform.known {} (Workflow.twins.platforms ++ [Text.ofString "edge"]) } := rfl
    obtain ⟨labels, again⟩ := (widening_keeps_workflows {} (Workflow.onlyScript Workflow.twins)
      (.ofText "w.py") wider fun u defines => by
        obtain rfl := Defined.workflow.inj (Workflow.defines_onlyScript defines)
        exact Workflow.twins_constructed).2.1 _ loaded
    exact ⟨labels, again⟩

end Load

end JobMatrix
