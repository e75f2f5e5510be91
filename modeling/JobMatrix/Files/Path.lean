import JobMatrix.Failure

set_option autoImplicit false

/-!
Paths. A path is kept by its parts: repeated slashes, single dots and a slash at the end do not
count; two dots do, as only the files tell where they lead.
-/

namespace JobMatrix

/-- Home directories: the own one, and those of other users by their names. -/
structure Homes where
  own : List Text := []
  others : Entries (List Text) := []
  deriving DecidableEq, Repr, Inhabited

structure Path where
  /-- The slashes in front: none, one, or two where exactly two were written. -/
  root : String := ""
  parts : List Text := []
  deriving DecidableEq, Repr, Inhabited

namespace Path

def slashes (t : Text) : String :=
  match (t.takeWhile (· == .char '/')).length with
  | 0 => ""
  | 2 => "//"
  | _ => "/"

def ofText (t : Text) : Path where
  root := slashes t
  parts := (t.splitAt '/').filter fun p => !p.isEmpty && p != [.char '.']

def text (p : Path) : Text :=
  if p.root.isEmpty && p.parts.isEmpty then [.char '.'] else p.root ++ Text.joined [.char '/'] p.parts

def isAbsolute (p : Path) : Bool := !p.root.isEmpty

/-- The second path, seen from the first. -/
def join (p q : Path) : Path := if q.isAbsolute then q else { p with parts := p.parts ++ q.parts }

def name (p : Path) : Text := p.parts.getLastD []

def parent (p : Path) : Path := { p with parts := p.parts.dropLast }

/-- The name cut at its last dot, unless the dot is the first or the last character. -/
def splitName (p : Path) : Text × Text :=
  let name := p.name
  let after := (name.reverse.takeWhile (· != .char '.')).reverse
  let before := name.take (name.length - after.length - 1)
  if after.isEmpty || before.isEmpty || after.length == name.length then (name, [])
  else (before, .char '.' :: after)

def stem (p : Path) : Text := p.splitName.1

def suffix (p : Path) : Text := p.splitName.2

/-- A tilde in front stands for the own home directory, or for that of the user named after it. -/
def expandHome (homes : Homes) (p : Path) : Except Failure Path :=
  match p.root.isEmpty, p.parts with
  | true, (.char '~' :: user) :: rest =>
    if user.isEmpty then .ok ⟨"/", homes.own ++ rest⟩
    else match Text.settled user with
      | .error fault => .error (.file fault)
      | .ok name => match homes.others.get? name with
        | some home => .ok ⟨"/", home ++ rest⟩
        | none => .error .unknownHome
  | _, _ => .ok p

/-- Two dots, which lead to the folder above. -/
def up : Text := [.char '.', .char '.']

/-- Takes two dots back to the part before them. -/
def normalParts (parts : List Text) : List Text :=
  (parts.foldl (fun places p => if p == up then places.drop 1 else p :: places) []).reverse

/-- The path from the root, with two dots taken back. -/
def resolve (cwd : List Text) (p : Path) : Path :=
  ⟨"/", normalParts (if p.isAbsolute then p.parts else cwd ++ p.parts)⟩

/-- The paths that are looked at one after the other when a path is resolved. -/
def stages (p : Path) : List Path :=
  (List.range p.parts.length).map fun k => { p with parts := normalParts (p.parts.take (k + 1)) }

/-- The order of lists of texts, part by part. -/
def beforeParts : List Text → List Text → Bool
  | [], _ => true
  | _ :: _, [] => false
  | a :: as, b :: bs => if a == b then beforeParts as bs else Text.before a b

def before (p q : Path) : Bool :=
  let all (r : Path) : List Text := if r.isAbsolute then Text.ofString r.root :: r.parts else r.parts
  beforeParts (all p) (all q)

/-! ### Limits -/

/-- A name has at most so many bytes. -/
def nameReach : Nat := 255

/-- The text of a path has at most so many bytes. -/
def reach : Nat := 4095

def nameSize (name : Text) : Nat := (name.systemBytes.toOption.map List.length).getD 0

end Path

end JobMatrix
