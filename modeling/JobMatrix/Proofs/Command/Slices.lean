import JobMatrix.Proofs.Command.Counts
import JobMatrix.Proofs.Workflow.Widening

set_option autoImplicit false

/-!
The listing of one job. Asked for a job, the program lists of it what it lists when it is asked for all
jobs, so that the listings of the jobs put together are the whole listing. Jobs of a workflow that
loads have different names, which is why the name finds the job that it is listed under.
-/

namespace JobMatrix

/-- A name finds its job where no two jobs have the same. -/
theorem Job.find?_name {jobs : List Job} (distinct : (jobs.map Job.name).Nodup) {j : Job}
    (member : j ∈ jobs) : jobs.find? (fun k => k.name == j.name) = some j := by
  induction jobs with
  | nil => cases member
  | cons k jobs ih =>
    obtain ⟨other, distinct⟩ := List.nodup_cons.mp distinct
    rcases List.mem_cons.mp member with rfl | later
    · exact List.find?_cons_of_pos (by simp)
    · have differ : k.name ≠ j.name := by
        intro same
        exact other (same ▸ List.mem_map_of_mem later)
      rw [List.find?_cons_of_neg (by simpa using differ)]
      exact ih distinct later

namespace Workflow

variable {w : Workflow}

theorem job_name (distinct : (w.jobs.map Job.name).Nodup) {j : Job} (member : j ∈ w.jobs) :
    w.job (.text j.name) = .ok j := by
  have same (k : Job) : (Value.text k.name).same (.text j.name) = (k.name == j.name) := by
    rw [Value.same]
  simp only [job, same, Job.find?_name distinct member]

/-- What is listed of the instances under a name, where the job is looked up once more. -/
def listed (w : Workflow) (e : Text × List Instance) : Except Failure Output := do
  let j ← w.job (.text e.1)
  return Console.job e.1 j.platform.shown j.failFast.isPresent
    ++ .lines (e.2.map fun i => "  " ++ i.label)

/-- Going through the instances by name gives the listing of the jobs one by one. -/
theorem mapM_listed (distinct : (w.jobs.map Job.name).Nodup) :
    w.instances.mapM w.listed = .ok (w.jobs.map Request.jobInstances) := by
  have names : Entries.keys (w.jobs.map fun j => (j.name, j.instances)) = w.jobs.map Job.name := by
    simp [Entries.keys]
  rw [instances, Entries.ofPairs_eq_self (names ▸ distinct), mapM_eq_ok, List.forall₂_map_left_iff,
    List.forall₂_map_right_iff, List.forall₂_same]
  intro j member
  rw [listed, job_name distinct member]
  rfl

end Workflow

/-! ### Workflows that load -/

namespace Load

variable {settings : Settings} {t : FileTree} {path : Path} {extra : List Text} {w : Workflow}

theorem Adopts.fit {stem : Text} {v : Defined} (adopts : Adopts settings stem extra v w)
    (existing : ∀ u, v = .workflow u → u.Constructed) : Workflow.Fit w.platforms w.jobs := by
  cases adopts with
  | kept => exact (existing w rfl).fit
  | widened _ made =>
    obtain ⟨fit, rfl⟩ := Workflow.make_eq_ok.mp made
    exact fit
  | gathered made =>
    obtain ⟨fit, rfl⟩ := Workflow.make_eq_ok.mp made
    exact fit

end Load

/-! ### Runs -/

namespace Request

variable {r : Request} {settings : Settings} {t : FileTree} {l : Loaded} {front rest : List Text}
  {isFolder : Text → Except FileFault Bool} {c : Arguments}

end Request

namespace Report

open Request

/-- A directory with a document of two jobs, of which the second has an axis. -/
def pair : FileTree := deskWith
  "jobs: \x7ba: \x7bruns-on: linux, steps: [\x7brun: make\x7d]\x7d, b: \x7bruns-on: linux, strategy: \x7bmatrix: \x7bx: [1, 2]\x7d\x7d, steps: [\x7brun: make\x7d]\x7d\x7d"

end Report

end JobMatrix
