import JobMatrix.Command.Report

set_option autoImplicit false

/-!
The program. It looks at the places that the command line and the settings can lead to, lets the
library work on what is there, prints the report and writes the files that have changed. It does
not execute scripts: one that it meets defines nothing.
-/

namespace JobMatrix.Program

def look (path : Text) : IO (Option FileEntry) := do
  let file := (← IO.currentDir) / path.shown
  if ← file.isDir then return some .folder
  else if ← file.pathExists then return some (.file (← IO.FS.readBinFile file).toList)
  else return none

def listing (folder : Text) : IO (List Text) := do
  let file := (← IO.currentDir) / folder.shown
  if ← file.isDir then
    return (← file.readDir).toList.map fun e => ((Path.ofText folder).join ⟨"", [e.fileName]⟩).text
  else return []

def canHoldWorkflow (path : Text) : Bool :=
  let p := Path.ofText path
  Load.isDocument p || Load.isScript p

/-- The texts that can be paths on a command line: arguments, and what is attached to a name or a
letter. -/
def mentioned (args : List Text) : List Text :=
  args.flatMap fun a =>
    [a, (a.dropWhile (· != .char '=')).drop 1, a.drop 2].filter fun s => !s.isEmpty

/-- A path, the folder above it and the path with the home directory put in. -/
def around (homes : Homes) (text : Text) : List Text :=
  let p := Path.ofText text
  p.text :: p.parent.text :: ((p.expandHome homes).toOption.map Path.text).toList

def addPath (t : FileTree) (path : Text) : IO FileTree := do
  match ← look path with
  | some e => return t.insert ((Path.ofText path).resolve t.cwd).parts e
  | none => return t

def partsOf (path : String) : List Text := (Path.ofText path).parts

def snapshot (settings : Settings) (args : List Text) : IO FileTree := do
  let cwd := partsOf (← IO.currentDir).toString
  let homes : Homes := { own := partsOf ((← IO.getEnv "HOME").getD "/") }
  let start := ({ cwd, homes } : FileTree).insert cwd .folder
  let documents := (Path.join {} (Path.ofText settings.workflowDir)).text
  let found := (← listing ".") ++ (← listing documents)
  let paths := documents :: found.filter canHoldWorkflow ++ (mentioned args).flatMap (around homes)
  paths.foldlM addPath start

/-- Writes the files whose content is not what it was. -/
def writeChanges (before after : FileTree) : IO Unit :=
  after.entries.forM fun (place, e) => do
    match e, before.entry? place with
    | .file new, some (.file old) =>
      if new != old then IO.FS.writeBinFile (Path.mk "/" place).text.shown ⟨new.toArray⟩
    | .file new, _ => IO.FS.writeBinFile (Path.mk "/" place).text.shown ⟨new.toArray⟩
    | _, _ => pure ()

def valueOf (name : String) : IO (Option Text) := return (← IO.getEnv name).map Text.ofString

/-- Runs a command line; a failure that nobody handles is reported in full. -/
def run (args : List Text) : IO UInt32 := do
  let settings := Settings.ofEnvironment
    ⟨← valueOf Environment.platformsVariable, ← valueOf Environment.cacheScopeVariable,
      ← valueOf Environment.workflowDirVariable⟩
  let before ← snapshot settings args
  let report := Report.ofCommandLine settings before args
  IO.print report.output.out.shown
  IO.eprint report.output.err.shown
  writeChanges before report.files
  match report.ending with
  | .status code => return UInt32.ofNat code
  | .failed f =>
    IO.eprint (Console.failure { debug := true } f).err.shown
    return 1

end JobMatrix.Program

def main (args : List String) : IO UInt32 := JobMatrix.Program.run (args.map JobMatrix.Text.ofString)
