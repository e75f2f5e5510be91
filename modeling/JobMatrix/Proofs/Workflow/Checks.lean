import JobMatrix.Proofs.Construction
import Mathlib.Data.List.Induction
import Mathlib.Data.List.Nodup

set_option autoImplicit false

/-!
What the checks of a workflow let through, said without them: jobs with different names on accepted
labels. All other lists of jobs are refused for the first job that does not fit to those before it,
and a name that came before is seen earlier than a label that is not accepted.
-/

namespace JobMatrix.Workflow

variable {platforms seen : List Text} {jobs before : List Job} {j : Job} {f : Failure}

/-- The jobs have different names, and each of them runs on one of the labels. -/
structure Fit (platforms : List Text) (jobs : List Job) : Prop where
  distinct : (jobs.map Job.name).Nodup
  accepted : ∀ j ∈ jobs, ∃ label ∈ platforms, j.platform = .text label

/-- Why a job is refused that comes after others. -/
inductive Rejects (platforms : List Text) (before : List Job) (j : Job) : Failure → Prop where
  | repeated : j.name ∈ before.map Job.name →
      Rejects platforms before j (.invalid { complaint := .jobRepeated, job := .text j.name })
  | unknown {shown : String} : j.name ∉ before.map Job.name → j.platform.unhashable? = none →
      j.platform.literal? = some shown →
      Rejects platforms before j (.invalid
        { complaint := .platformUnknown j.platform (Platform.sorted platforms),
          job := .text j.name })
  | unhashable {kind : String} : j.name ∉ before.map Job.name →
      j.platform.unhashable? = some kind → Rejects platforms before j (.unhashable kind)
  | unprintable : j.name ∉ before.map Job.name → j.platform.unhashable? = none →
      j.platform.literal? = none → Rejects platforms before j .longInteger

/-- The first job that does not fit, with the jobs before it. -/
structure FirstMisfit (platforms : List Text) (jobs before : List Job) (j : Job) : Prop where
  inOrder : before ++ [j] <+: jobs
  fit : Fit platforms before
  misfit : ¬Fit platforms (before ++ [j])

theorem isLabel_eq_true {v : Value} :
    isLabel platforms v = true ↔ ∃ label ∈ platforms, v = .text label := by
  cases v <;> simp [isLabel]

theorem fit_nil : Fit platforms [] := ⟨List.nodup_nil, by simp⟩

theorem fit_append_iff {rest : List Job} : Fit platforms (jobs ++ rest) ↔
    Fit platforms jobs ∧ Fit platforms rest ∧ ∀ k ∈ rest, k.name ∉ jobs.map Job.name := by
  constructor
  · rintro ⟨distinct, accepted⟩
    rw [List.map_append, List.nodup_append] at distinct
    obtain ⟨first, second, apart⟩ := distinct
    obtain ⟨acceptedFirst, acceptedSecond⟩ := List.forall_mem_append.mp accepted
    refine ⟨⟨first, acceptedFirst⟩, ⟨second, acceptedSecond⟩, fun k member earlier => ?_⟩
    exact apart k.name earlier k.name (List.mem_map_of_mem member) rfl
  · rintro ⟨⟨first, acceptedFirst⟩, ⟨second, acceptedSecond⟩, fresh⟩
    refine ⟨?_, List.forall_mem_append.mpr ⟨acceptedFirst, acceptedSecond⟩⟩
    rw [List.map_append, List.nodup_append]
    refine ⟨first, second, ?_⟩
    intro name earlier other later same
    obtain ⟨k, member, rfl⟩ := List.mem_map.mp later
    exact fresh k member (same ▸ earlier)

theorem fit_singleton_iff : Fit platforms [j] ↔ ∃ label ∈ platforms, j.platform = .text label := by
  constructor
  · intro fit
    exact fit.accepted j List.mem_cons_self
  · intro accepted
    refine ⟨List.nodup_singleton j.name, fun k member => ?_⟩
    obtain rfl := List.mem_singleton.mp member
    exact accepted

/-- One job more is checked against the names of those before it. -/
theorem fit_snoc_iff : Fit platforms (before ++ [j]) ↔
    Fit platforms before ∧ j.name ∉ before.map Job.name ∧
      ∃ label ∈ platforms, j.platform = .text label := by
  rw [fit_append_iff, fit_singleton_iff]
  simp only [List.forall_mem_singleton]
  tauto

theorem Fit.mono {labels : List Text} (fit : Fit platforms jobs) (wider : platforms ⊆ labels) :
    Fit labels jobs := by
  refine ⟨fit.distinct, fun j member => ?_⟩
  obtain ⟨label, known, runs⟩ := fit.accepted j member
  exact ⟨label, wider known, runs⟩

/-! ### One job -/

theorem checkJobs_cons_of_accepted {rest : List Job} (fresh : j.name ∉ seen)
    (accepted : ∃ label ∈ platforms, j.platform = .text label) :
    checkJobs platforms seen (j :: rest) = checkJobs platforms (j.name :: seen) rest := by
  have label := isLabel_eq_true.mpr accepted
  simp [checkJobs, fresh, label]

theorem rejects_refusal (fresh : j.name ∉ before.map Job.name) :
    Rejects platforms before j (refusal platforms j) := by
  unfold refusal
  cases hashed : j.platform.unhashable? with
  | some kind => exact .unhashable fresh hashed
  | none =>
    cases shown : j.platform.literal? with
    | none => exact .unprintable fresh hashed shown
    | some text => exact .unknown fresh hashed shown

/-- A job that does not fit ends the checks, whatever comes after it. -/
theorem exists_rejection (names : ∀ name, name ∈ seen ↔ name ∈ before.map Job.name)
    (misfit : j.name ∈ before.map Job.name ∨ ¬∃ label ∈ platforms, j.platform = .text label) :
    ∃ f, Rejects platforms before j f ∧
      ∀ rest, checkJobs platforms seen (j :: rest) = .error f := by
  by_cases earlier : j.name ∈ before.map Job.name
  · refine ⟨_, .repeated earlier, fun rest => ?_⟩
    simp [checkJobs, (names j.name).mpr earlier]
  · refine ⟨_, rejects_refusal earlier, fun rest => ?_⟩
    have unknown : isLabel platforms j.platform = false := by
      rw [← Bool.not_eq_true, isLabel_eq_true]
      exact misfit.resolve_left earlier
    have fresh : j.name ∉ seen := fun member => earlier ((names j.name).mp member)
    simp [checkJobs, fresh, unknown]

theorem Rejects.unique {g : Failure} (hf : Rejects platforms before j f)
    (hg : Rejects platforms before j g) : f = g := by
  cases hf <;> cases hg <;> simp_all

/-! ### All jobs -/

/-- Jobs that fit are passed over, and their names are remembered. -/
theorem checkJobs_append {rest : List Job} (fit : Fit platforms jobs)
    (fresh : ∀ j ∈ jobs, j.name ∉ seen) :
    checkJobs platforms seen (jobs ++ rest) =
      checkJobs platforms ((jobs.map Job.name).reverse ++ seen) rest := by
  induction jobs generalizing seen with
  | nil => rfl
  | cons j jobs ih =>
    obtain ⟨distinct, accepted⟩ := fit
    obtain ⟨other, distinct⟩ := List.nodup_cons.mp distinct
    obtain ⟨here, accepted⟩ := List.forall_mem_cons.mp accepted
    obtain ⟨new, fresh⟩ := List.forall_mem_cons.mp fresh
    have later : ∀ k ∈ jobs, k.name ∉ j.name :: seen := by
      intro k member again
      rcases List.mem_cons.mp again with same | earlier
      · exact other (same ▸ List.mem_map_of_mem member)
      · exact fresh k member earlier
    rw [List.cons_append, checkJobs_cons_of_accepted new here, ih ⟨distinct, accepted⟩ later]
    simp

theorem checkJobs_of_fit (fit : Fit platforms jobs) : checkJobs platforms [] jobs = .ok () := by
  have passed : checkJobs platforms [] (jobs ++ []) = _ := checkJobs_append fit (by simp)
  rw [List.append_nil] at passed
  rw [passed, checkJobs]

theorem exists_firstMisfit (misfit : ¬Fit platforms jobs) :
    ∃ before j, FirstMisfit platforms jobs before j := by
  induction jobs using List.reverseRecOn with
  | nil => exact absurd fit_nil misfit
  | append_singleton jobs j ih =>
    by_cases fit : Fit platforms jobs
    · exact ⟨jobs, j, List.prefix_rfl, fit, misfit⟩
    · obtain ⟨before, k, inOrder, fit, misfit⟩ := ih fit
      exact ⟨before, k, inOrder.trans (List.prefix_append jobs [j]), fit, misfit⟩

theorem FirstMisfit.checkJobs (first : FirstMisfit platforms jobs before j) :
    ∃ f, Rejects platforms before j f ∧ Workflow.checkJobs platforms [] jobs = .error f := by
  obtain ⟨⟨after, rfl⟩, fit, misfit⟩ := first
  rw [fit_snoc_iff, not_and, not_and_or, not_not] at misfit
  have names (name : Text) : name ∈ (before.map Job.name).reverse ++ [] ↔
      name ∈ before.map Job.name := by simp
  obtain ⟨f, rejects, failed⟩ := exists_rejection names (misfit fit)
  refine ⟨f, rejects, ?_⟩
  rw [List.append_assoc, checkJobs_append fit (by simp)]
  exact failed after

theorem checkJobs_eq_ok : checkJobs platforms [] jobs = .ok () ↔ Fit platforms jobs := by
  refine ⟨fun passed => ?_, checkJobs_of_fit⟩
  by_contra misfit
  obtain ⟨before, j, first⟩ := exists_firstMisfit misfit
  obtain ⟨f, -, failed⟩ := first.checkJobs
  simp [passed] at failed

theorem checkJobs_eq_error : checkJobs platforms [] jobs = .error f ↔
    ∃ before j, FirstMisfit platforms jobs before j ∧ Rejects platforms before j f := by
  constructor
  · intro failed
    have misfit : ¬Fit platforms jobs := fun fit => by simp [checkJobs_of_fit fit] at failed
    obtain ⟨before, j, first⟩ := exists_firstMisfit misfit
    obtain ⟨g, rejects, failed'⟩ := first.checkJobs
    obtain rfl := Except.error.inj (failed.symm.trans failed')
    exact ⟨before, j, first, rejects⟩
  · rintro ⟨before, j, first, rejects⟩
    obtain ⟨g, rejects', failed⟩ := first.checkJobs
    rw [failed, rejects.unique rejects']

/-! ### Making a workflow -/

variable {settings : Settings} {name triggers : Value} {extra : List Text} {w : Workflow}

theorem known_mono {fewer more : List Text} (contained : fewer ⊆ more) :
    Platform.known settings fewer ⊆ Platform.known settings more := by
  intro label member
  simp only [Platform.known, List.mem_append] at member ⊢
  exact member.imp_right fun extra => contained extra

theorem make_eq_ok : make settings name jobs triggers extra = .ok w ↔
    Fit (Platform.known settings extra) jobs ∧
      w = ⟨name, jobs, triggers, Platform.known settings extra⟩ := by
  simp only [make, bind_eq_ok, pure_eq_ok]
  constructor
  · rintro ⟨⟨⟩, passed, rfl⟩
    exact ⟨checkJobs_eq_ok.mp passed, rfl⟩
  · rintro ⟨fit, rfl⟩
    exact ⟨(), checkJobs_of_fit fit, rfl⟩

theorem make_eq_error : make settings name jobs triggers extra = .error f ↔
    ∃ before j, FirstMisfit (Platform.known settings extra) jobs before j ∧
      Rejects (Platform.known settings extra) before j f := by
  rw [← checkJobs_eq_error]
  constructor
  · intro failed
    rcases bind_eq_error.mp failed with failed | ⟨u, -, none⟩
    · exact failed
    · simp at none
  · intro failed
    exact bind_eq_error.mpr (.inl failed)

end JobMatrix.Workflow
