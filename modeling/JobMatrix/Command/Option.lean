import JobMatrix.Text.Bytes
import JobMatrix.Text.Similar

set_option autoImplicit false

/-!
Reading the arguments of a command line. Options have a long name and may have a letter; a switch
stands alone, any other option takes a value, either attached to it or as the next argument. Two
dashes alone end the options.
-/

namespace JobMatrix

structure OptionRule where
  name : String
  letter : Option Char := none
  /-- What the value is called; a switch has none. -/
  value : Option String := none
  summary : String
  deriving DecidableEq, Repr

/-- What is wrong with a command line. -/
inductive Misuse where
  | noSuchOption (name : Text) (similar : List Text)
  | valueMissing (name : Text)
  | valueUnwanted (name : Text)
  | extraArguments (arguments : List Text)
  | outputIsFolder (path : Text)
  | noSuchCommand (name : Text) (similar : List Text)
  | commandMissing
  deriving DecidableEq, Repr

namespace Misuse

/-- Whether a character lies between two others. -/
def lies (first last : Char) : CodePoint → Bool
  | .char c => first ≤ c && c ≤ last
  | .surrogate _ => false

/-- What follows the bracket of a sequence that steers a terminal: parameters, signs and a final
character, which is `none` when it is missing. Gives what comes after the sequence. -/
def afterSequence? (t : Text) : Option Text :=
  match (t.dropWhile (lies '0' '?')).dropWhile (lies ' ' '/') with
  | c :: after => if lies '@' '~' c then some after else none
  | [] => none

theorem length_afterSequence? {t rest : Text} (h : afterSequence? t = some rest) :
    rest.length < t.length := by
  have one : ((t.dropWhile (lies '0' '?')).dropWhile (lies ' ' '/')).length ≤ t.length :=
    Nat.le_trans (List.dropWhile_sublist _).length_le (List.dropWhile_sublist _).length_le
  unfold afterSequence? at h
  split at h
  · next c after eq =>
    rw [eq, List.length_cons] at one
    split at h
    · injection h with h
      subst h
      omega
    · simp at h
  · simp at h

/-- Drops the sequences that steer a terminal: an escape and a bracket, and what belongs to them. -/
def dropSequences : Text → Text
  | [] => []
  | .char '\x1b' :: .char '[' :: rest =>
    match h : afterSequence? rest with
    | some after =>
      have := length_afterSequence? h
      dropSequences after
    | none => .char '\x1b' :: dropSequences (.char '[' :: rest)
  | c :: rest => c :: dropSequences rest
termination_by t => t.length

def suggestion : List Text → String
  | [] => ""
  | [word] => " Did you mean " ++ Text.quoted word ++ "?"
  | words => " (Did you mean one of: " ++ ", ".intercalate (words.map Text.quoted) ++ "?)"

def text : Misuse → Text
  | .noSuchOption name similar =>
    "No such option " ++ Text.quoted name ++ "." ++ suggestion similar
  | .valueMissing name => "Option " ++ Text.quoted name ++ " requires an argument."
  | .valueUnwanted name => "Option " ++ Text.quoted name ++ " does not take a value."
  | .extraArguments arguments =>
    "Got unexpected extra argument" ++ (if arguments.length = 1 then "" else "s") ++ " ("
      ++ dropSequences (Text.joined " " arguments) ++ ")"
  | .outputIsFolder path =>
    "Invalid value for '--output' / '-o': File " ++ Text.quoted path.shownName ++ " is a directory."
  | .noSuchCommand name similar =>
    "No such command " ++ Text.quoted name ++ "." ++ suggestion similar
  | .commandMissing => "Missing command."

/-- Whether the report begins with the usage of the command. A fault in how a value is given does
not need it. -/
def showsUsage : Misuse → Bool
  | .valueMissing _ | .valueUnwanted _ => false
  | _ => true

end Misuse

structure GivenOption where
  name : String
  value : Option Text := none
  deriving DecidableEq, Repr

structure Arguments where
  options : List GivenOption := []
  others : List Text := []
  deriving DecidableEq, Repr

namespace Arguments

def last? (a : Arguments) (name : String) : Option Text :=
  ((a.options.filter fun o => o.name == name).getLast?).bind GivenOption.value

def all (a : Arguments) (name : String) : List Text :=
  (a.options.filter fun o => o.name == name).filterMap GivenOption.value

def has (a : Arguments) (name : String) : Bool := a.options.any fun o => o.name == name

/-- An option that still needs its value: the spelling it was given in and its name. -/
structure Waiting where
  spelling : Text
  name : String

/-- Reads letters that share one dash. The first that takes a value takes what follows it. -/
def readLetters (rules : List OptionRule) :
    Text → Except Misuse (List GivenOption × Option Waiting)
  | [] => .ok ([], none)
  | c :: rest =>
    match rules.find? fun r => r.letter.map CodePoint.char == some c with
    | none => .error (.noSuchOption [.char '-', c] [])
    | some r =>
      if r.value.isNone then do
        let (given, waiting) ← readLetters rules rest
        return (⟨r.name, none⟩ :: given, waiting)
      else if rest.isEmpty then .ok ([], some ⟨[.char '-', c], r.name⟩)
      else .ok ([⟨r.name, some rest⟩], none)

/-- The name and the attached value of an argument that stands for an option. -/
def splitAttached (argument : Text) : Text × Option Text :=
  let name := argument.takeWhile (· != .char '=')
  match argument.drop name.length with
  | [] => (name, none)
  | _ :: value => (name, some value)

/-- Reads one argument that stands for options. Names are tried before letters. -/
def readOption (rules : List OptionRule) (argument : Text) :
    Except Misuse (List GivenOption × Option Waiting) :=
  let (name, attached) := splitAttached argument
  match rules.find? fun r => Text.ofString r.name == name with
  | some r =>
    match r.value, attached with
    | none, none => .ok ([⟨r.name, none⟩], none)
    | none, some _ => .error (.valueUnwanted name)
    | some _, none => .ok ([], some ⟨name, r.name⟩)
    | some _, some v => .ok ([⟨r.name, some v⟩], none)
  | none =>
    match argument with
    | .char '-' :: .char '-' :: _ =>
      .error (.noSuchOption name (Text.similarWords name (rules.map fun r => r.name)))
    | _ => readLetters rules (argument.drop 1)

/-- Whether an argument stands for options: a dash and more. -/
def standsForOption (argument : Text) : Bool :=
  match argument with
  | .char '-' :: _ :: _ => true
  | _ => false

/-- Reads arguments. When options cannot be `scattered` among other arguments, the first other
argument ends them. -/
def read (rules : List OptionRule) (scattered : Bool) : List Text → Except Misuse Arguments
  | [] => .ok {}
  | argument :: rest =>
    if argument == Text.ofString "--" then .ok { others := rest }
    else if standsForOption argument then do
      match ← readOption rules argument with
      | (given, none) =>
        let more ← read rules scattered rest
        return { more with options := given ++ more.options }
      | (given, some waiting) =>
        match rest with
        | [] => throw (.valueMissing waiting.spelling)
        | value :: rest =>
          let more ← read rules scattered rest
          return { more with options := given ++ ⟨waiting.name, some value⟩ :: more.options }
    else if scattered then do
      let more ← read rules scattered rest
      return { more with others := argument :: more.others }
    else .ok { others := argument :: rest }

end Arguments

end JobMatrix
