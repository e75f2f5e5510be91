import JobMatrix.Command.Action

set_option autoImplicit false

/-!
The pages that describe the command line. Lists have two columns, and the second is broken between
words so that every line of a page fits.
-/

namespace JobMatrix

namespace Help

def program : String := "matrixci"

def lineWidth : Nat := 78

/-- Between the columns, and in front of the first. -/
def gap : Nat := 2

def spaces (n : Nat) : String := String.ofList (List.replicate n ' ')

/-- Puts as many words on each line as fit; `line` holds what the current line has. -/
def fill (width : Nat) : String → List String → List String
  | line, [] => if line.isEmpty then [] else [line]
  | line, word :: rest =>
    if line.isEmpty then fill width word rest
    else if line.length + 1 + word.length ≤ width then fill width (line ++ " " ++ word) rest
    else line :: fill width word rest

def wrapped (width : Nat) (text : String) : List String :=
  fill width "" ((text.toList.splitOn ' ').map String.ofList)

/-- The lines of a list with two columns; the first column is as wide as its widest entry. -/
def rows (entries : List (String × String)) : List String :=
  let column := (entries.map fun e => e.1.length).foldl max 0 + gap
  entries.flatMap fun e =>
    match wrapped (lineWidth - gap - column) e.2 with
    | [] => [spaces gap ++ e.1]
    | first :: rest => (spaces gap ++ e.1 ++ spaces (column - e.1.length) ++ first)
        :: rest.map (spaces (gap + column) ++ ·)

def optionHeading (o : OptionRule) : String :=
  (match o.letter with
    | some c => String.ofList ['-', c, ',', ' ']
    | none => "") ++ o.name
    ++ match o.value with
      | some v => " " ++ v
      | none => ""

def optionRows (rules : List OptionRule) : List String :=
  "Options:" :: rows (rules.map fun o => (optionHeading o, o.summary))

def commandRows : List String := "Commands:" :: rows (Action.all.map fun a => (a.name, a.summary))

/-- The program, with the action that a page belongs to. -/
def command : Option Action → String
  | none => program
  | some a => program ++ " " ++ a.name

def usage (page : Option Action) : String :=
  "Usage: " ++ command page ++ " [OPTIONS]"
    ++ match page with
      | none => " COMMAND [ARGS]..."
      | some _ => ""

def purpose : Option Action → String
  | none => program ++ ": expand CI job matrices and resolve per-instance cache keys."
  | some a => a.summary

def page (p : Option Action) : List String :=
  [usage p, "", spaces gap ++ purpose p, ""]
    ++ match p with
      | none => optionRows commonOptions ++ [""] ++ commandRows
      | some a => optionRows a.options

/-- The lines that report a misuse. -/
def misuse (p : Option Action) (m : Misuse) : List Text :=
  (if m.showsUsage then
    [usage p, "Try '" ++ command p ++ " --help' for help.", ""].map Text.ofString
  else []) ++ ["Error: " ++ m.text]

end Help

end JobMatrix
