import JobMatrix.Json
import JobMatrix.Files.Fault
import JobMatrix.Signature
import JobMatrix.Yaml.Fault

set_option autoImplicit false

/-!
Everything that can end an operation, as causes, and the text and the kind that are reported for
each cause.
-/

namespace JobMatrix

inductive Complaint where
  | axisNotList
  | cellNotScalar (kind : String)
  | axisUnnamed
  | axisRepeated
  | axisEmpty
  | jobUnnamed
  | jobRepeated
  | jobWithoutSteps
  | stepAmbiguous (step : Value)
  | platformUnknown (label : Value) (known : List Text)
  /-- A job under construction that was given no platform. -/
  | platformUnset
  /-- A job under construction that was given no step. -/
  | stepsUnset
  | stated (text : Text)
  deriving Repr

def Complaint.text : Complaint → Text
  | .axisNotList => "matrix axis must be a list of values"
  | .cellNotScalar kind => "matrix values must be scalars, got " ++ kind
  | .axisUnnamed => "matrix axis name must be a non-empty string"
  | .axisRepeated => "duplicate matrix axis"
  | .axisEmpty => "matrix axis has no values"
  | .jobUnnamed => "job name must be a non-empty string"
  | .jobRepeated => "duplicate job name"
  | .jobWithoutSteps => "job must have at least one step"
  | .stepAmbiguous step =>
    "step " ++ step.literal?.getD "" ++ " must define exactly one of run/uses"
  | .platformUnknown label known =>
    "unknown platform " ++ label.literal?.getD "" ++ "; known: " ++ Text.quotedList known
  | .platformUnset => "job has no platform (call runs_on)"
  | .stepsUnset => "job has no steps"
  | .stated text => text

/-- A complaint, with the job and the axis it concerns; null stands for none. -/
structure Invalid where
  complaint : Complaint
  job : Value := .null
  axis : Value := .null

/-- The complaint, followed by the job and the axis when they are there. -/
def Invalid.message (e : Invalid) : Text :=
  let clause (label : String) (v : Value) : List Text :=
    if v.isPresent then [label ++ "=" ++ v.shown] else []
  let place := clause "job" e.job ++ clause "axis" e.axis
  if place.isEmpty then e.complaint.text
  else e.complaint.text ++ " (" ++ Text.joined ", " place ++ ")"

inductive Obstacle where
  | notFound
  | malformedYaml
  | notMapping (kind : String)
  | schema
  | matrixKeys (job : Text) (keys : List String)
  | nameCollision
  | nothingDefined
  | unknownType (suffix : Text)
  | stated (text : Text)
  deriving DecidableEq, Repr

def Obstacle.text : Obstacle → Text
  | .notFound => "workflow file not found"
  | .malformedYaml => "invalid YAML"
  | .notMapping kind => "workflow must be a YAML mapping, got " ++ kind
  | .schema => "workflow does not match the expected schema"
  | .matrixKeys job keys =>
    "job " ++ Text.quoted job ++ ": matrix " ++ "/".intercalate keys ++ " is not supported"
  | .nameCollision => "workflow() is being called with arguments (name collision with a helper?)"
  | .nothingDefined =>
    "workflow file must define workflow() -> Workflow, WORKFLOW = Workflow(...) or JOBS = [Job, ...]"
  | .unknownType suffix =>
    "unsupported workflow file type " ++ Text.quoted suffix ++ " (want .yml, .yaml or .py)"
  | .stated text => text

/-- An obstacle, with the file it was met in. -/
structure Unloadable where
  path : Text
  obstacle : Obstacle
  details : List Text := []
  deriving DecidableEq, Repr

/-- The path and the obstacle on one line, and the details on further lines. -/
def Unloadable.message (e : Unloadable) : Text :=
  Text.joined "\n" ((e.path ++ ": " ++ e.obstacle.text) :: e.details.map (("  " : String) ++ ·))

inductive Raised where
  | value (text : Text)
  | type (text : Text)
  | key (text : Text)
  deriving DecidableEq, Repr

inductive Failure where
  | invalid (e : Invalid)
  | unloadable (e : Unloadable)
  | notUtf8 (e : Text.Utf8Error)
  /-- A text that YAML cannot read for a reason other than its form. -/
  | yaml (fault : Yaml.Fault)
  | longInteger
  | json (fault : JsonFault)
  /-- A look-up of a key that is not there. -/
  | missing (key : Value)
  /-- A command of blanks only, from which a step was to take its name. -/
  | blankCommand
  /-- A home directory of a user nobody knows. -/
  | unknownHome
  | file (fault : FileFault)
  /-- A folder in place of a script, without a script of its own. -/
  | noMain (path : Text)
  /-- A text with surrogates where its bytes are asked for. -/
  | unencodable (e : Text.EncodeError)
  /-- A call that does not fit what is called. -/
  | call (fault : CallFault)
  /-- A call of something that is not there. -/
  | noOperation
  /-- A value that has no elements where a list of pairs is asked for. -/
  | notIterable (kind : String)
  /-- An element of a list of pairs that has no elements. -/
  | elementNotPair (index : Nat)
  /-- An element of a list of pairs that has another number of elements than two. -/
  | elementLength (index length : Nat)
  /-- A key that is no scalar. -/
  | unhashable (kind : String)
  /-- A value other than a text where placeholders are looked for. -/
  | unreadable (kind : String)
  /-- Bytes where placeholders are looked for. -/
  | unreadableBytes
  /-- Bytes in place of a runner label. -/
  | labelOfBytes
  /-- A value other than a text in place of the runner label in a key. -/
  | labelNotText
  | raised (e : Raised)

namespace Failure

def calendarMessage : CalendarFault → String
  | .year y => "year " ++ toString y ++ " is out of range"
  | .month => "month must be in 1..12"
  | .day => "day is out of range for month"
  | .hour => "hour must be in 0..23"
  | .minute => "minute must be in 0..59"
  | .second => "second must be in 0..59"
  | .offset s => "offset must be a timedelta strictly between -timedelta(hours=24) and "
      ++ "timedelta(hours=24), not " ++ Value.durationLiteral s ++ "."

def digitLimit : String :=
  "Exceeds the limit (" ++ toString Integer.maxDigits ++ " digits) for integer string conversion"

def digitLimitAdvice : String := "; use sys.set_int_max_str_digits() to increase the limit"

/-- What is told about an integer that is too long to print. -/
def unprintable : String := digitLimit ++ digitLimitAdvice

/-- The most characters that are shown of a text that is no integer. -/
def literalReach : Nat := 200

def scalarMessage : Yaml.ScalarFault → String
  | .emptyNumber => "string index out of range"
  | .integer base text => "invalid literal for int() with base " ++ toString base ++ ": "
      ++ String.ofList ((Text.quoteChars text).take literalReach)
  | .longInteger digits => digitLimit ++ ": value has " ++ toString digits ++ " digits"
      ++ digitLimitAdvice
  | .decimal text => "could not convert string to float: " ++ Text.quoted text
  | .placesOverflow => "int too large to convert to float"
  | .truth text => Text.quoted text
  | .timestamp => "'NoneType' object has no attribute 'groupdict'"
  | .timestampCollection => "expected string or bytes-like object, got 'list'"
  | .calendar fault => calendarMessage fault

def scalarKind : Yaml.ScalarFault → String
  | .emptyNumber => "IndexError"
  | .integer _ _ | .longInteger _ | .decimal _ | .calendar _ => "ValueError"
  | .placesOverflow => "OverflowError"
  | .truth _ => "KeyError"
  | .timestamp => "AttributeError"
  | .timestampCollection => "TypeError"

/-- The longest signed word that an escape may name without being refused as too large. -/
def largestWord : Nat := 2147483647

def yamlMessage : Yaml.Fault → String
  | .report r => r.problem
  | .character _ _ => "special characters are not allowed"
  | .scalar fault => scalarMessage fault
  | .charactersAsPairs => "not enough values to unpack (expected 2, got 1)"
  | .itemAsPair shape => "cannot unpack non-iterable " ++ shape ++ " object"
  | .longKey => unprintable
  | .codePoint code =>
    if code ≤ largestWord then "chr() arg not in range(0x110000)"
    else "Python int too large to convert to C int"
  | .tooDeep | .endless => "maximum recursion depth exceeded"

def yamlKind : Yaml.Fault → String
  | .report _ | .character _ _ => "YAMLError"
  | .scalar fault => scalarKind fault
  | .charactersAsPairs => "ValueError"
  | .itemAsPair _ => "TypeError"
  | .longKey => "ValueError"
  | .codePoint code => if code ≤ largestWord then "ValueError" else "OverflowError"
  | .tooDeep | .endless => "RecursionError"

def jsonMessage : JsonFault → String
  | .unsupported kind => "Object of type " ++ kind ++ " is not JSON serializable"
  | .unsupportedKey kind => "keys must be str, int, float, bool or None, not " ++ kind
  | .circular => "Circular reference detected"
  | .longInteger => unprintable

def message : Failure → Text
  | .invalid e => e.message
  | .unloadable e => e.message
  | .notUtf8 e => e.message
  | .yaml fault => yamlMessage fault
  | .longInteger => unprintable
  | .json fault => jsonMessage fault
  | .missing key => key.literal?.getD ""
  | .blankCommand => "list index out of range"
  | .unknownHome => "Could not determine home directory."
  | .file fault => fault.message
  | .noMain path => "can't find '__main__' module in " ++ Text.quoted path
  | .unencodable e => e.message
  | .call fault => fault.message
  | .noOperation => []
  | .notIterable kind => "'" ++ kind ++ "' object is not iterable"
  | .elementNotPair index => "cannot convert dictionary update sequence element #"
      ++ toString index ++ " to a sequence"
  | .elementLength index length => "dictionary update sequence element #" ++ toString index
      ++ " has length " ++ toString length ++ "; 2 is required"
  | .unhashable kind => "unhashable type: '" ++ kind ++ "'"
  | .unreadable kind => "expected string or bytes-like object, got '" ++ kind ++ "'"
  | .unreadableBytes => "cannot use a string pattern on a bytes-like object"
  | .labelOfBytes => "a bytes-like object is required, not 'str'"
  | .labelNotText => "quote_from_bytes() expected bytes"
  | .raised (.value text) => text
  | .raised (.type text) => text
  | .raised (.key text) => Text.quoted text

def kind : Failure → String
  | .invalid _ => "ValidationError"
  | .unloadable _ => "WorkflowLoadError"
  | .notUtf8 _ => "UnicodeDecodeError"
  | .yaml fault => yamlKind fault
  | .longInteger => "ValueError"
  | .json (.unsupported _) | .json (.unsupportedKey _) => "TypeError"
  | .json .circular | .json .longInteger => "ValueError"
  | .missing _ => "KeyError"
  | .blankCommand => "IndexError"
  | .unknownHome => "RuntimeError"
  | .file fault => fault.kind
  | .noMain _ => "ImportError"
  | .unencodable _ => "UnicodeEncodeError"
  | .call _ => "TypeError"
  | .noOperation => "AttributeError"
  | .notIterable _ | .elementNotPair _ | .unhashable _ => "TypeError"
  | .unreadable _ | .unreadableBytes | .labelOfBytes | .labelNotText => "TypeError"
  | .elementLength _ _ => "ValueError"
  | .raised (.value _) => "ValueError"
  | .raised (.type _) => "TypeError"
  | .raised (.key _) => "KeyError"

/-- The failure underneath, by kind and message, where a full report names it too. -/
def underneath? : Failure → Option (String × String)
  | .noMain _ => some ("ImportError", "No module named __main__")
  | _ => none

end Failure

end JobMatrix
