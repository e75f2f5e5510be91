import JobMatrix.Workflow

set_option autoImplicit false

/-!
Instances of a job: one for each combination of values of its matrix, the first axis varying
slowest.
-/

namespace JobMatrix

structure Instance where
  job : Text
  platform : Value
  /-- A value for each axis, in the order of the axes. -/
  assignment : List (Text × Text) := []
  index : Int := 0
  deriving Repr

namespace Instance

/-- The assignment as a mapping: the last of several values of one axis counts. -/
def cells (i : Instance) : Entries Text := Entries.ofPairs i.assignment

def os (i : Instance) : Except Failure Text := Platform.osOf i.platform

/-- The job's name, with the values in brackets when there are some. -/
def label (i : Instance) : Text :=
  if i.assignment.isEmpty then i.job
  else i.job ++ " (" ++ Text.joined ", " (i.assignment.map Prod.snd) ++ ")"

end Instance

namespace Job

/-- All choices of one value for each axis. -/
def combinations : List Axis → List (List (Text × Text))
  | [] => [[]]
  | axis :: rest =>
    let tails := combinations rest
    axis.values.flatMap fun v => tails.map ((axis.name, v) :: ·)

/-- The number of instances, without making them. -/
def instanceCount (j : Job) : Nat :=
  match j.matrix with
  | none => 1
  | some axes => (axes.map fun a => a.values.length).foldl (· * ·) 1

/-- The instances. A job without a matrix, or with one without axes, has one. -/
def instances (j : Job) : List Instance :=
  (combinations (j.matrix.getD [])).mapIdx fun k assignment =>
    { job := j.name, platform := j.platform, assignment, index := k }

end Job

/-- The instances of all jobs, by the names of the jobs. -/
def Workflow.instances (w : Workflow) : Entries (List Instance) :=
  Entries.ofPairs (w.jobs.map fun j => (j.name, j.instances))

end JobMatrix
