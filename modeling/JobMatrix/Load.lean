import JobMatrix.Files.Tree
import JobMatrix.Form.Check

set_option autoImplicit false

/-!
Loading workflows from files: documents by their shape, scripts by what they define, and the choice
between the two by the suffix of the path.
-/

namespace JobMatrix

namespace Load

/-- Turns the line breaks of all systems into line feeds. -/
def normalBreaks : List Char → List Char
  | [] => []
  | '\r' :: '\n' :: rest => '\n' :: normalBreaks rest
  | c :: rest => (if c == '\r' then '\n' else c) :: normalBreaks rest

/-- Whether a fault is about the text of a document, and so is reported with the file. -/
def yamlText? (text : List Char) : Yaml.Fault → Option Text
  | .report r => some (r.text text)
  | .character c index => some ("unacceptable character #x" ++ String.ofList (hex c.toNat)
      ++ ": special characters are not allowed\n  in \"<unicode string>\", position "
      ++ toString index)
  | _ => none
where
  hex (n : Nat) : List Char := Text.hexDigits (if n < 0x10000 then 4 else 6) n

def parse (path : Text) (text : List Char) : Except Failure Yaml.Document :=
  match Yaml.Document.ofText text with
  | .ok d => .ok d
  | .error fault =>
    match yamlText? text fault with
    | some detail => .error (.unloadable { path, obstacle := .malformedYaml, details := [detail] })
    | none => .error (.yaml fault)

/-- The kind of the data of a document, as messages give it. -/
def rootKind (d : Yaml.Document) : String :=
  match d.cell d.root with
  | .scalar v => v.kindName
  | .list _ | .pairs _ => "list"
  | .set _ => "set"
  | .map _ => "dict"

/-- Reads the bytes of a document, whose data is a mapping; `on` is there as a text. -/
def readMapping (path : Text) (bytes : List UInt8) :
    Except Failure (Yaml.Document × List (Value × Nat)) := do
  match Text.decodeUtf8 bytes with
  | .error e => throw (.notUtf8 e)
  | .ok cs =>
    let d ← parse path (normalBreaks cs)
    match d.cell d.root with
    | .map entries =>
      let entries := Check.restoreOn entries
      return (d.withRoot (.map entries), entries)
    | _ => throw (.unloadable { path, obstacle := .notMapping (rootKind d) })

def readForm (path : Text) (bytes : List UInt8) : Except Failure WorkflowForm := do
  let (d, entries) ← readMapping path bytes
  match Check.workflow d entries with
  | .ok form => return form
  | .error problems => throw (.unloadable
      { path, obstacle := .schema, details := problems.map ShapeProblem.text })

def document (settings : Settings) (t : FileTree) (path : Path) (extra : List Text) :
    Except Failure Workflow := do
  let path ← path.expandHome t.homes
  match ← (t.lookup path).mapError .file with
  | some (.file bytes) =>
    let form ← readForm path.text bytes
    form.workflow settings path.text path.stem extra
  | some (.script _) => throw (.unloadable { path := path.text, obstacle := .notMapping "str" })
  | _ => throw (.unloadable { path := path.text, obstacle := .notFound })

/-- What a script has to say when its function is called with arguments. -/
def collisionHint : String := "Use the 'wf' helper: `def workflow(): return wf(job(...), ...)`"

def occursIn (part whole : Text) : Bool :=
  match whole with
  | [] => part.isEmpty
  | _ :: rest => part.isPrefixOf whole || occursIn part rest

/-- Calls the function of a script. A complaint about its arguments is taken for a sign that
another function has taken its name. -/
def callFunction (path : Text) (f : ScriptFunction) : Except Failure Defined :=
  match f.call with
  | .error failure =>
    if failure.kind == "TypeError" && occursIn "positional argument" failure.message then
      .error (.unloadable { path, obstacle := .nameCollision, details := [collisionHint] })
    else .error failure
  | r => r

/-- What a script defines: by its function, else by its workflow, else by its jobs. -/
def defined (path : Text) (globals : Entries Definition) : Except Failure Defined :=
  match globals.get? "workflow" with
  | some (.function f) => callFunction path f
  | _ =>
    match (globals.get? "WORKFLOW").or (globals.get? "JOBS") with
    | some (.value v) => .ok v
    | _ => .ok .other

def resolved (t : FileTree) (path : Path) : Except Failure Path := do
  let path ← path.expandHome t.homes
  path.stages.forM fun stage => (discard stage.text.systemBytes).mapError .file
  return path.resolve t.cwd

/-- The script that a folder is executed by. -/
def mainScript : Path := { parts := ["__main__.py"] }

/-- What executing the script at a path defines. A file that is no script defines nothing. -/
def execute (t : FileTree) (path : Path) : Script := do
  match ← (t.lookup path).mapError .file with
  | none => throw (.unloadable { path := path.text, obstacle := .notFound })
  | some (.script s) => s
  | some (.file _) | some .sink => return []
  | some .folder =>
    match ← (t.lookup (path.join mainScript)).mapError .file with
    | some (.script s) => s
    | some (.file _) => return []
    | _ => throw (.noMain path.text)

/-- Loads a script. Extra labels are accepted on top of those that the script accepts itself. -/
def script (settings : Settings) (t : FileTree) (path : Path) (extra : List Text) :
    Except Failure Workflow := do
  let path ← resolved t path
  let globals ← execute t path
  match ← defined path.text globals with
  | .workflow w => if extra.isEmpty then return w else w.widen settings extra
  | .jobs js => Workflow.make settings (.text path.stem) js (.map []) extra
  | .other => throw (.unloadable { path := path.text, obstacle := .nothingDefined })

def isDocument (path : Path) : Bool :=
  path.suffix == Text.ofString ".yml" || path.suffix == Text.ofString ".yaml"

def isScript (path : Path) : Bool := path.suffix == Text.ofString ".py"

end Load

def load (settings : Settings) (t : FileTree) (path : Path) (extra : List Text) :
    Except Failure Workflow :=
  if Load.isDocument path then Load.document settings t path extra
  else if Load.isScript path then Load.script settings t path extra
  else .error (.unloadable { path := path.text, obstacle := .unknownType path.suffix })

end JobMatrix
