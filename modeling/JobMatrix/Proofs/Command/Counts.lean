import JobMatrix.Proofs.Command.Arguments
import JobMatrix.Proofs.Command.ReportedKeys
import JobMatrix.Proofs.Workflow.Typed

set_option autoImplicit false

/-!
What is counted and what is listed. Validation counts the instances of a workflow without making them;
the other actions make them and list them job by job. They list as many as were counted, where they
list any: the list of instances always, the keys and the plan when there are keys and a plan.
-/

namespace JobMatrix

theorem Job.length_instances_eq (j : Job) : j.instances.length = j.instanceCount := by
  rw [length_instances, instanceCount_eq]

/-- Sections that belong to jobs have as many parts as the jobs have instances. -/
theorem Job.length_flatMap {α : Type} {inst : α → Instance} {jobs : List Job}
    {sections : Entries (List α)}
    (made : List.Forall₂ (fun j e => e.2.map inst = j.instances) jobs sections) :
    (sections.flatMap Prod.snd).length = (jobs.map Job.instanceCount).sum := by
  induction made with
  | nil => rfl
  | @cons j e _ _ first _ ih =>
    have size : e.2.length = j.instanceCount := by
      rw [← j.length_instances_eq, ← first, List.length_map]
    rw [List.flatMap_cons, List.length_append, ih, List.map_cons, List.sum_cons, size]

/-! ### Listings -/

/-- What is printed in sections: a heading, and one entry for each instance. -/
abbrev Listing := List (Output × List Output)

namespace Listing

def output (l : Listing) : Output := .concat (l.map fun s => s.1 ++ .concat s.2)

def entries (l : Listing) : List Output := l.flatMap Prod.snd

/-- There is a section for each job and an entry for each of its instances. -/
def Covers (shown : Instance → Output → Prop) (jobs : List Job) (l : Listing) : Prop :=
  List.Forall₂ (fun j s => s.1 = Request.jobHeading j ∧ List.Forall₂ shown j.instances s.2) jobs l

end Listing

theorem Output.foldl_append (parts : List Output) (front : Output) : parts.foldl append front =
    ⟨front.out ++ parts.flatMap Output.out, front.err ++ parts.flatMap Output.err⟩ := by
  induction parts generalizing front with
  | nil => simp
  | cons o parts ih =>
    rw [List.foldl_cons, ih, List.flatMap_cons, List.flatMap_cons, ← List.append_assoc,
      ← List.append_assoc]
    rfl

@[simp] theorem Output.out_concat (parts : List Output) :
    (concat parts).out = parts.flatMap Output.out := by
  rw [concat, foldl_append]
  rfl

/-- The report is a success that prints a listing of the jobs behind something else. -/
def Report.Lists (r : Report) (front : Output) (shown : Instance → Output → Prop)
    (jobs : List Job) (listing : Listing) : Prop :=
  r.ending = .status 0 ∧ r.output.out = (front ++ listing.output).out ∧
    listing.Covers shown jobs ∧ listing.length = jobs.length ∧
    listing.entries.length = (jobs.map Job.instanceCount).sum

namespace Request

variable {r : Request} {settings : Settings} {t : FileTree} {l : Loaded}

end Request

namespace Report

open Request

/-- A directory with one document, which is of ASCII characters. -/
def deskWith (content : String) : FileTree where
  entries := [([Text.ofString "desk"], .folder),
    (["desk", "ci.yml"].map Text.ofString, .file (content.toList.map fun c => UInt8.ofNat c.toNat))]
  cwd := [Text.ofString "desk"]

end Report

end JobMatrix
