import JobMatrix.Settings
import JobMatrix.Text.Lower
import JobMatrix.Value.Reading

set_option autoImplicit false

/-!
Runner labels: which are accepted, and the family of operating systems that a label stands for.
-/

namespace JobMatrix

namespace Platform

/-- The labels of hosted runners and the bare names of the operating systems. -/
def defaults : List Text :=
  ["ubuntu-latest", "ubuntu-24.04", "ubuntu-22.04", "ubuntu-20.04",
   "windows-latest", "windows-2025", "windows-2022", "windows-2019",
   "macos-latest", "macos-15", "macos-14", "macos-13",
   "linux", "windows", "macos"].map Text.ofString

/-- All labels accepted under the settings and on top of them. -/
def known (settings : Settings) (extra : List Text) : List Text :=
  defaults ++ settings.extraPlatforms ++ extra

/-- Drops what equals its neighbour. -/
def dropRepeats : List Text → List Text
  | a :: b :: rest => if a == b then dropRepeats (b :: rest) else a :: dropRepeats (b :: rest)
  | rest => rest

/-- Each label once, in code point order. -/
def sorted (labels : List Text) : List Text := dropRepeats (labels.mergeSort Text.before)

/-- Whether a label starts with the name of a family, in any case. -/
def startsWith (label : Text) (family : String) : Bool := (Text.lower label).startsWith family

/-- The operating system of a label; an unknown label stands for itself. -/
def os (label : Text) : Text :=
  if startsWith label "ubuntu" || startsWith label "linux" then ("Linux" : String)
  else if startsWith label "windows" then ("Windows" : String)
  else if startsWith label "macos" || startsWith label "osx" then ("macOS" : String)
  else label

/-- The operating system of a value that has to be a label. -/
def osOf : Value → Except Failure Text
  | .text label => .ok (os label)
  | .bytes _ => .error .labelOfBytes
  | _ => .error .noOperation

end Platform

end JobMatrix
