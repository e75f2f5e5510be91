import JobMatrix.Form
import JobMatrix.Yaml.Document
import JobMatrix.Text.Utf8

set_option autoImplicit false

/-!
The shape that a workflow document has to have. A check gives a form, or all the problems of the
document with their places: those of the fields in the order of the fields, then those of the keys
that are no fields.
-/

namespace JobMatrix

/-- What a part of a document should have been. -/
inductive ShapeFault where
  | required
  | text
  | textBytes
  | truth
  | truthWord
  | list
  | mapping
  | record (name : String)
  | key
  | emptyList
  | emptyMapping
  deriving DecidableEq, Repr

def ShapeFault.message : ShapeFault → String
  | .required => "Field required"
  | .text => "Input should be a valid string"
  | .textBytes => "Input should be a valid string, unable to parse raw data as a unicode string"
  | .truth => "Input should be a valid boolean"
  | .truthWord => "Input should be a valid boolean, unable to interpret input"
  | .list => "Input should be a valid list"
  | .mapping => "Input should be a valid dictionary"
  | .record name => "Input should be a valid dictionary or instance of " ++ name
  | .key => "Keys should be strings"
  | .emptyList => "List should have at least 1 item after validation, not 0"
  | .emptyMapping => "Dictionary should have at least 1 item after validation, not 0"

/-- A problem and where it is: the keys and numbers that lead there. -/
structure ShapeProblem where
  place : List Text
  fault : ShapeFault
  deriving DecidableEq, Repr

def ShapeProblem.text (p : ShapeProblem) : Text :=
  Text.joined [.char '.'] p.place ++ (": " ++ p.fault.message : String)

/-- A checked part, or its problems. -/
abbrev Verdict := Except (List ShapeProblem)

namespace Verdict

variable {α β γ : Type}

def fault (place : List Text) (f : ShapeFault) : Verdict α := .error [⟨place, f⟩]

/-- Both parts, or the problems of both. -/
def and (a : Verdict α) (b : Verdict β) : Verdict (α × β) :=
  match a, b with
  | .ok x, .ok y => .ok (x, y)
  | .error e, .ok _ => .error e
  | .ok _, .error e => .error e
  | .error e, .error f => .error (e ++ f)

/-- All parts, or the problems of all. -/
def all : List (Verdict α) → Verdict (List α)
  | [] => .ok []
  | v :: rest => (v.and (all rest)).map fun (x, xs) => x :: xs

end Verdict

/-- A part of a document: a node, a value that is no node of its own, or a pair. -/
inductive Part where
  | node (id : Nat)
  | loose (v : Value)
  | pair

namespace Part

open Yaml (Document Cell)

def scalar? (d : Document) : Part → Option Value
  | .node id => match d.cell id with
    | .scalar v => some v
    | _ => none
  | .loose v => some v
  | .pair => none

def entries? (d : Document) : Part → Option (List (Value × Nat))
  | .node id => match d.cell id with
    | .map entries => some entries
    | _ => none
  | _ => none

def elements? (d : Document) : Part → Option (List Part)
  | .node id => match d.cell id with
    | .list items => some (items.map .node)
    | .set members => some (members.map .loose)
    | .pairs items => some (items.map fun _ => .pair)
    | _ => none
  | _ => none

def isNull (d : Document) (p : Part) : Bool :=
  match p.scalar? d with
  | some .null => true
  | _ => false

end Part

namespace Check

open Yaml (Document Cell)

/-- A text, or bytes that are one. -/
def textValue (place : List Text) : Value → Verdict Text
  | .text s => .ok s
  | .bytes bs => match Text.decodeUtf8 bs with
    | .ok cs => .ok (Text.ofChars cs)
    | .error _ => .fault place .textBytes
  | _ => .fault place .text

def text (d : Document) (place : List Text) (p : Part) : Verdict Text :=
  match p.scalar? d with
  | some v => textValue place v
  | none => .fault place .text

def optionalText (d : Document) (place : List Text) (p : Part) : Verdict (Option Text) :=
  if p.isNull d then .ok none else (text d place p).map some

/-- Words that are read as truth values, in any case. -/
def truthWords : List (String × Bool) :=
  [("0", false), ("off", false), ("f", false), ("false", false), ("n", false), ("no", false),
   ("1", true), ("on", true), ("t", true), ("true", true), ("y", true), ("yes", true)]

def truthOfChars (place : List Text) (cs : List Char) : Verdict Bool :=
  match find (· == ·) truthWords (String.ofList (cs.map Char.toLower)) with
  | some b => .ok b
  | none => .fault place .truthWord

def truthOfText (place : List Text) (s : Text) : Verdict Bool :=
  match s.characters with
  | .ok cs => truthOfChars place cs
  | .error _ => .fault place .textBytes

/-- An integer of more than 64 bits is not even looked at as a number. -/
def truthOfInt (place : List Text) (n : Int) : Verdict Bool :=
  if n = 0 then .ok false
  else if n = 1 then .ok true
  else if -(Nat.pow 2 63 : Int) ≤ n && n < Nat.pow 2 63 then .fault place .truthWord
  else .fault place .truth

/-- A truth value, a word for one, or a number that is 0 or 1. -/
def truth (d : Document) (place : List Text) (p : Part) : Verdict Bool :=
  match p.scalar? d with
  | some (.bool b) => .ok b
  | some (.text s) => truthOfText place s
  | some (.bytes bs) => match Text.decodeUtf8 bs with
    | .ok cs => truthOfChars place cs
    | .error _ => .fault place .truthWord
  | some (.int n) => truthOfInt place n
  | some (.float x) => match x.toInt? with
    | some n => if n.natAbs < Nat.pow 2 63 then truthOfInt place n else .fault place .truth
    | none => .fault place .truth
  | _ => .fault place .truth

/-- How a code point stands in a place: what is no character as one replacement for each byte that
it would have. -/
def placePoint : CodePoint → List Char
  | .char c => [c]
  | .surrogate _ => ['\ufffd', '\ufffd', '\ufffd']

/-- A key as a place shows it: truth values as numbers, other than texts in literal form. -/
def keyText : Value → Text
  | .text s => Text.ofChars (s.flatMap placePoint)
  | .bool b => [.char (if b then '1' else '0')]
  | v => v.literal?.getD "<unprintable int object>"

/-- The entries of a mapping with textual keys, each checked by `check`. -/
def entriesWith {α : Type} (place : List Text) (entries : List (Value × Nat))
    (check : List Text → Nat → Verdict α) : Verdict (Entries α) :=
  (Verdict.all (entries.map fun e =>
    let inner := place ++ [keyText e.1]
    (textValue (inner ++ [Text.ofString "[key]"]) e.1).and (check inner e.2))).map Entries.ofPairs

/-- A mapping with textual keys and arbitrary values. -/
def valueEntries (d : Document) (place : List Text) (p : Part) : Verdict (Entries Value) :=
  match p.entries? d with
  | some entries => entriesWith place entries fun _ id => .ok (d.value id)
  | none => .fault place .mapping

/-- A list whose elements are checked one by one. -/
def list {α : Type} (d : Document) (place : List Text) (p : Part)
    (check : List Text → Part → Verdict α) : Verdict (List α) :=
  match p.elements? d with
  | some parts => Verdict.all (parts.mapIdx fun k part => check (place ++ [Text.ofString (toString k)]) part)
  | none => .fault place .list

/-- A field under its usual name, else under its other name, with the name it was found under. -/
def field? (entries : List (Value × Nat)) (name other : String) : Option (Text × Part) :=
  let under (n : Text) : Option (Text × Part) :=
    (find Value.same entries (.text n)).map fun id => (n, .node id)
  (under name).or (under other)

def optional {α : Type} (place : List Text) (entries : List (Value × Nat)) (name other : String)
    (default : α) (check : List Text → Part → Verdict α) : Verdict α :=
  match field? entries name other with
  | some (n, part) => check (place ++ [n]) part
  | none => .ok default

def required {α : Type} (place : List Text) (entries : List (Value × Nat)) (name other : String)
    (check : List Text → Part → Verdict α) : Verdict α :=
  match field? entries name other with
  | some (n, part) => check (place ++ [n]) part
  | none => .fault (place ++ [Text.ofString name]) .required

/-- Keys that are no fields may be anything textual. -/
def otherKeys (place : List Text) (entries : List (Value × Nat)) : Verdict Unit :=
  let problems := entries.filterMap fun e => match e.1 with
    | .text _ => none
    | key => some ⟨place ++ [keyText key], .key⟩
  if problems.isEmpty then .ok () else .error problems

/-- Whether a key is a text that holds more than characters. -/
def isUnreadable (key : Value) : Bool :=
  match key with
  | .text s => s.any CodePoint.isSurrogate
  | _ => false

/-- The fields of a record, given its entries, and its other keys. A key that cannot be read leaves
nothing else to say about the record. -/
def fields {α : Type} (place : List Text) (entries : List (Value × Nat)) (v : Verdict α) :
    Verdict α :=
  if entries.any fun e => isUnreadable e.1 then .fault place .textBytes
  else (v.and (otherKeys place entries)).map Prod.fst

def record {α : Type} (d : Document) (name : String) (place : List Text) (p : Part)
    (check : List (Value × Nat) → Verdict α) : Verdict α :=
  match p.entries? d with
  | some entries => fields place entries (check entries)
  | none => .fault place (.record name)

def step (d : Document) (place : List Text) (p : Part) : Verdict StepForm :=
  record d "StepSchema" place p fun es =>
    let textField (name other : String) := optional place es name other none (optionalText d)
    ((textField "name" "name").and ((textField "run" "run").and ((textField "uses" "uses").and
      ((optional place es "with" "with_" [] (valueEntries d)).and ((textField "shell" "shell").and
        ((textField "working-directory" "working_directory").and
          (optional place es "env" "env" [] (valueEntries d)))))))).map
      fun (name, run, uses, inputs, shell, cwd, env) => { name, run, uses, inputs, shell, cwd, env }

def orNull {α : Type} (d : Document) (check : List Text → Part → Verdict α) (place : List Text)
    (p : Part) : Verdict (Option α) :=
  if p.isNull d then .ok none else (check place p).map some

def strategy (d : Document) (place : List Text) (p : Part) : Verdict StrategyForm :=
  record d "StrategySchema" place p fun es =>
    ((optional place es "fail-fast" "fail_fast" true (truth d)).and
      (optional place es "matrix" "matrix" none (orNull d (valueEntries d)))).map
      fun (failFast, matrix) => { failFast, matrix }

/-- A label, or a list of labels; what is neither has the problems of both. -/
def runner (d : Document) (place : List Text) (p : Part) : Verdict RunnerForm :=
  match text d (place ++ [Text.ofString "str"]) p with
  | .ok label => .ok (.label label)
  | .error asText =>
    match list d (place ++ [Text.ofString "list[str]"]) p (text d) with
    | .ok labels => .ok (.labels labels)
    | .error asList => .error (asText ++ asList)

def someOf {α : Type} (place : List Text) (v : Verdict (List α)) : Verdict (List α) :=
  v.bind fun xs => if xs.isEmpty then Verdict.fault place .emptyList else .ok xs

def job (d : Document) (place : List Text) (p : Part) : Verdict JobForm :=
  record d "JobSchema" place p fun es =>
    ((required place es "runs-on" "runs_on" (runner d)).and
      ((optional place es "strategy" "strategy" none (orNull d (strategy d))).and
        ((optional place es "env" "env" [] (valueEntries d)).and
          (required place es "steps" "steps" fun at_ part =>
            someOf at_ (list d at_ part (step d)))))).map
      fun (runner, strategy, env, steps) => { runner, strategy, env, steps }

def jobs (d : Document) (place : List Text) (p : Part) : Verdict (Entries JobForm) :=
  match p.entries? d with
  | some entries =>
    (entriesWith place entries fun inner id => job d inner (.node id)).bind fun js =>
      if js.isEmpty then Verdict.fault place .emptyMapping else .ok js
  | none => .fault place .mapping

/-- What starts a workflow; what is none of the forms counts as nothing. -/
def triggers (d : Document) (id : Nat) : TriggerForm :=
  match d.cell id with
  | .scalar (.text s) => .event s
  | .list items => .events (items.map d.value)
  | .pairs items => .events (items.map fun p => .tuple [d.value p.1, d.value p.2])
  | .map entries => .settings (entries.map fun e => (e.1, d.value e.2))
  | _ => .nothing

def workflow (d : Document) (es : List (Value × Nat)) : Verdict WorkflowForm :=
  let named := optional [] es "name" "name" none (optionalText d)
  (fields [] es (named.and (required [] es "jobs" "jobs" (jobs d)))).map fun (name, jobs) =>
    let triggers := match find Value.same es (.text "on") with
      | some id => triggers d id
      | none => .nothing
    { name, triggers, jobs }

/-- An unquoted `on` is read as a truth value: unless there is a textual `on`, a key that is equal
to true becomes one, at the end. -/
def restoreOn (es : List (Value × Nat)) : List (Value × Nat) :=
  match find Value.same es (.bool true), find Value.same es (.text "on") with
  | some id, none => es.filter (fun e => !e.1.same (.bool true)) ++ [(.text "on", id)]
  | _, _ => es

end Check

end JobMatrix
