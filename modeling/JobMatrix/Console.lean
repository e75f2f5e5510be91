import JobMatrix.Failure

set_option autoImplicit false

/-!
What is printed for people to read: workflows, jobs, instances and steps on the output, faults and
remarks on the error output. Every text ends its line.
-/

namespace JobMatrix

structure Output where
  out : Text := []
  err : Text := []
  deriving DecidableEq, Repr, Inhabited

namespace Output

def append (a b : Output) : Output := ⟨a.out ++ b.out, a.err ++ b.err⟩

instance : Append Output := ⟨append⟩

def concat (parts : List Output) : Output := parts.foldl append {}

def lines (ls : List Text) : Output := { out := ls.flatMap (· ++ [.char '\n']) }

def errorLines (ls : List Text) : Output := { err := ls.flatMap (· ++ [.char '\n']) }

end Output

/-- A place to print on, which shows remarks and full reports only when it is asked to. -/
structure Console where
  debug : Bool := false
  deriving DecidableEq, Repr, Inhabited

namespace Console

/-- A workflow, where it comes from and how many jobs and instances it has. -/
def workflow (name source jobs instances : Text) : Output :=
  .lines ["\nWORKFLOW", "Name: " ++ name, "Source: " ++ source, "Jobs: " ++ jobs,
    "Instances: " ++ instances, ""]

/-- A job with its runner label and what a failed instance does to the others. -/
def job (name platform : Text) (failFast : Bool) : Output :=
  .lines ["\nJOB: " ++ name ++ " [" ++ platform ++ ", "
    ++ (if failFast then "fail-fast" else "no-fail-fast") ++ "]"]

/-- An instance with its key, and with the key its job declares if there is one. -/
def inst (label key : Text) (rendered : Option Text) : Output :=
  let declared : Option Text := rendered.map fun r => "    cache (declared): " ++ r
  .lines (["  " ++ label, "    cache: " ++ key] ++ declared.toList)

def step (name detail : Text) : Output := .lines ["    STEP: " ++ name ++ ": " ++ detail]

/-- A fault with details and with advice, which the empty text does not count as. -/
def error (title message : Text) (details : List Text) (advice : Text) : Output :=
  let indented : List Text := details.map fun d => "  " ++ d
  .errorLines (("\nERROR: " ++ title) :: message :: indented
    ++ if advice.isEmpty then [] else ["\n" ++ advice])

def info (message : Text) : Output := .lines [message]

def remark (c : Console) (message : Text) : Output :=
  if c.debug then .errorLines ["[DEBUG] " ++ message] else {}

/-- The lines of a full report on one failure: its kind, and its message if it has one. -/
def reportLines (kind : String) (message : Text) : List Text :=
  ["Traceback (most recent call last):", if message.isEmpty then kind else kind ++ ": " ++ message]

/-- A full report, which begins with the failure underneath if there is one. -/
def report (f : Failure) : List Text :=
  let cause : List Text := match f.underneath? with
    | some (kind, message) => reportLines kind message
      ++ ["", "The above exception was the direct cause of the following exception:", ""].map
        Text.ofString
    | none => []
  cause ++ reportLines f.kind f.message

/-- A failure that nobody expected: in full, or by its message. -/
def failure (c : Console) (f : Failure) : Output :=
  .errorLines (if c.debug then report f else ["Error: " ++ f.message])

/-- A note of what a part of the program has done. -/
def note (c : Console) (part : String) (message : Text) : Output :=
  if c.debug then .errorLines ["DEBUG matrixci." ++ part ++ ": " ++ message] else {}

end Console

end JobMatrix
