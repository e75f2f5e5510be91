import JobMatrix.Command.Help
import JobMatrix.Console
import JobMatrix.Discovery
import JobMatrix.Load
import JobMatrix.Plan

set_option autoImplicit false

/-!
What the program does for a command line: what it prints, how it ends and which files it leaves.
-/

namespace JobMatrix

inductive Ending where
  | status (code : Nat)
  /-- A failure that nobody handles. -/
  | failed (f : Failure)

structure Report where
  ending : Ending := .status 0
  output : Output := {}
  files : FileTree

namespace Request

def console (r : Request) : Console := { debug := r.debug }

structure Loaded where
  path : Path
  workflow : Workflow

/-- What is told about a file that gives no workflow. -/
def loadFailure (c : Console) : Failure → Output
  | .unloadable e => Console.error "Failed to load workflow"
      ("Could not load workflow from " ++ e.path) (e.obstacle.text :: e.details) []
  | .invalid e => Console.error "Invalid workflow" e.message [] "Fix the declaration and try again."
  | f => c.failure f

/-- The labels that are accepted in addition, as a remark gives them. -/
def platformsText (platforms : List Text) : String :=
  if platforms.isEmpty then "none" else Text.quotedList platforms

def loadNote (c : Console) (t : FileTree) (path : Path) (w : Workflow) : Output :=
  match Load.isDocument path, path.expandHome t.homes with
  | true, .ok full => c.note "loader" ("loaded " ++ w.name.shown ++ ": " ++ toString w.jobs.length
      ++ " job(s) from " ++ full.text)
  | _, _ => {}

/-- Finds and loads the workflow. What is printed on the way comes first; without a workflow the
run ends. -/
def loaded (r : Request) (settings : Settings) (t : FileTree) : Output × Except Ending Loaded :=
  match discover settings t r.workflow with
  | .error fault => ({}, .error (.failed (.file fault)))
  | .ok (.error u) => (Console.error u.title u.message u.details u.advice, .error (.status 1))
  | .ok (.ok path) =>
    let remark := r.console.remark
      ("loading " ++ path.text ++ " (extra platforms: " ++ platformsText r.platforms ++ ")")
    match load settings t path r.platforms with
    | .ok w => (remark ++ loadNote r.console t path w, .ok ⟨path, w⟩)
    | .error f => (remark ++ loadFailure r.console f, .error (.status 1))

/-- The note about the instances of a job, if it has axes. -/
def expansionNote (c : Console) (j : Job) : Output :=
  match j.matrix with
  | none | some [] => {}
  | some axes => c.note "expand" ("expanded " ++ j.name ++ " into " ++ toString j.instances.length
      ++ " instance(s) over axes " ++ Text.quotedList (axes.map Axis.name))

def keysNote (c : Console) (j : Job) : Output :=
  expansionNote c j ++ c.note "cache"
    ("resolved " ++ toString j.instances.length ++ " cache key(s) for " ++ j.name)

/-- The notes about the keys of jobs, up to a job that has no keys. -/
def allKeysNotes (c : Console) (scope : Option Text) : List Job → Output
  | [] => {}
  | j :: rest =>
    match j.cacheKeys scope with
    | .ok _ => keysNote c j ++ allKeysNotes c scope rest
    | .error _ => expansionNote c j

/-- The notes about the plans of jobs: those about their keys, up to a job that has no plan. -/
def allPlanNotes (c : Console) (scope : Option Text) : List Job → Output
  | [] => {}
  | j :: rest =>
    match j.plan scope with
    | .ok _ => keysNote c j ++ allPlanNotes c scope rest
    | .error _ => allKeysNotes c scope [j]

def planNote (c : Console) (p : Plan) : Output :=
  c.note "plan" ("planned " ++ p.workflow.shown ++ ": " ++ toString p.jobs.length ++ " job(s), "
    ++ toString p.instances.length ++ " instance(s)")

def jobHeading (j : Job) : Output := Console.job j.name j.platform.shown j.failFast.isPresent

def printed (j : Json) : Output := .lines [j.indented 0]

def runValidate (l : Loaded) (t : FileTree) : Report :=
  let total := (l.workflow.jobs.map Job.instanceCount).foldl (· + ·) 0
  { output := Console.info ("OK: " ++ l.path.text ++ " (" ++ toString l.workflow.jobs.length
      ++ " job(s), " ++ toString total ++ " instance(s))")
    files := t }

def jobInstances (j : Job) : Output :=
  let labels : List Text := j.instances.map fun i => "  " ++ i.label
  jobHeading j ++ .lines labels

def runExpand (r : Request) (l : Loaded) (t : FileTree) : Report :=
  let notes := Output.concat (l.workflow.jobs.map (expansionNote r.console))
  match r.job with
  | none => { output := notes ++ .concat (l.workflow.jobs.map jobInstances), files := t }
  | some name =>
    match l.workflow.jobs.find? fun j => j.name == name with
    | some j => { output := notes ++ jobInstances j, files := t }
    | none =>
      { ending := .status 1
        output := notes ++ Console.error "Unknown job" ("No job named " ++ Text.quoted name)
          (l.workflow.jobs.map Job.name) []
        files := t }

def keyJson (k : Instance × CacheKey) : Json :=
  .object [("label", .string k.1.label), ("key", .string k.2.value),
    ("digest", .string k.2.digest),
    ("rendered_key", match k.2.rendered with
      | some s => .string s
      | none => .null)]

/-- What stands in front of every key: what is asked for, or else what the settings say. -/
def scopeIn (r : Request) (settings : Settings) : Option Text := r.scope.or settings.cacheScope

def runKeys (r : Request) (settings : Settings) (l : Loaded) (t : FileTree) : Report :=
  let scope := r.scopeIn settings
  let notes := allKeysNotes r.console scope l.workflow.jobs
  match l.workflow.cacheKeys scope with
  | .error f => { ending := .failed f, output := notes, files := t }
  | .ok keys =>
    let shown :=
      if r.json then printed (.object (keys.map fun k => (k.1, .array (k.2.map keyJson))))
      else Output.concat ((l.workflow.jobs.zip keys).map fun (j, _, ks) =>
        jobHeading j ++ .concat (ks.map fun k => Console.inst k.1.label k.2.value k.2.rendered))
    { output := notes ++ shown, files := t }

def stepDetail (s : Step) : Text :=
  if s.run.isNull then "uses " ++ s.uses.shown else s.run.shown

def plannedInstance (p : PlannedInstance) : Output :=
  Console.inst p.inst.label p.key.value p.key.rendered
    ++ .concat (p.steps.map fun s => Console.step s.name.shown (stepDetail s))

/-- Writes a text to a file. A text without bytes leaves the file empty. -/
def writeText (t : FileTree) (file : Text) (text : Text) : FileTree × Option Failure :=
  let place := Path.ofText file
  match t.write place [], Text.encodeUtf8 text with
  | .error fault, _ => (t, some (.file fault))
  | .ok emptied, .error e => (emptied, some (.unencodable e))
  | .ok emptied, .ok bytes =>
    match t.write place bytes with
    | .ok written => (written, none)
    | .error fault => (emptied, some (.file fault))

def writePlan (notes : Output) (plan : Plan) (file : Text) (t : FileTree) : Report :=
  match plan.toJson with
  | .error fault => { ending := .failed (.json fault), output := notes, files := t }
  | .ok j =>
    match writeText t file (j.indented 0) with
    | (files, some f) => { ending := .failed f, output := notes, files }
    | (files, none) =>
      { output := notes ++ Console.info ("Wrote plan for " ++ toString plan.instances.length
          ++ " instance(s) to " ++ file)
        files }

/-- What is printed of a plan for people to read. -/
def planText (l : Loaded) (plan : Plan) : Output :=
  Console.workflow l.workflow.name.shown l.path.text (toString l.workflow.jobs.length)
      (toString plan.instances.length)
    ++ .concat ((l.workflow.jobs.zip plan.jobs).map fun (j, _, planned) =>
      jobHeading j ++ .concat (planned.map plannedInstance))

def runPlan (r : Request) (settings : Settings) (l : Loaded) (t : FileTree) : Report :=
  let jobNotes := allPlanNotes r.console (r.scopeIn settings) l.workflow.jobs
  match l.workflow.plan settings r.scope with
  | .error f => { ending := .failed f, output := jobNotes, files := t }
  | .ok plan =>
    let notes := jobNotes ++ planNote r.console plan
    match r.output.filter fun s => !s.isEmpty with
    | some file => writePlan notes plan file t
    | none =>
      if r.json then
        match plan.toJson with
        | .ok j => { output := notes ++ printed j, files := t }
        | .error fault => { ending := .failed (.json fault), output := notes, files := t }
      else { output := notes ++ planText l plan, files := t }

def run (r : Request) (settings : Settings) (t : FileTree) : Report :=
  match r.loaded settings t with
  | (printed, .error ending) => { ending, output := printed, files := t }
  | (printed, .ok l) =>
    let report := match r.action with
      | .validate => runValidate l t
      | .expand => r.runExpand l t
      | .keys => r.runKeys settings l t
      | .plan => r.runPlan settings l t
    { report with output := printed ++ report.output }

end Request

/-- What is told instead of running: help is a success, unless nobody asked for it. -/
def Refusal.report (t : FileTree) : Refusal → Report
  | .help page => { output := .lines ((Help.page page).map Text.ofString), files := t }
  | .nothingAsked =>
    { ending := .status 2, output := .errorLines ((Help.page none).map Text.ofString), files := t }
  | .misuse page m => { ending := .status 2, output := .errorLines (Help.misuse page m), files := t }
  | .unusable fault => { ending := .failed (.file fault), files := t }

/-- Whether a text names a folder; the empty text names nothing, and neither does one that is too
long. -/
def FileTree.namesFolder (t : FileTree) (text : Text) : Except FileFault Bool := do
  let _ ← text.systemBytes
  match t.pathIsFolder (Path.ofText text) with
  | .ok isFolder => return !text.isEmpty && isFolder
  | .error _ => return false

/-- What the program does for a command line. -/
def Report.ofCommandLine (settings : Settings) (t : FileTree) (args : List Text) : Report :=
  match Request.read t.namesFolder args with
  | .error refusal => refusal.report t
  | .ok r => r.run settings t

end JobMatrix
