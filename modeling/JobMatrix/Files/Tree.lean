import JobMatrix.Files.Path
import JobMatrix.Script

set_option autoImplicit false

/-!
Files as the program sees them: a tree of folders with files and scripts in them, the current
directory and the home directories.
-/

namespace JobMatrix

inductive FileEntry where
  | folder
  | file (content : List UInt8)
  | script (s : Script)
  /-- A place that takes what is written and keeps nothing. -/
  | sink

structure FileTree where
  /-- Everything but the root, which is a folder, by its parts from the root. -/
  entries : List (List Text × FileEntry) := []
  cwd : List Text := []
  homes : Homes := {}

namespace FileTree

def entry? (t : FileTree) (place : List Text) : Option FileEntry :=
  if place.isEmpty then some .folder else find (· == ·) t.entries place

def isFolder (t : FileTree) (place : List Text) : Bool :=
  match t.entry? place with
  | some .folder => true
  | _ => false

/-- Follows parts from a place. Everything on the way is a folder, and the end exists; a name that
is too long stops the walk in the folder where it is looked for. `path` is what a fault shows. -/
def walk (t : FileTree) (path : Text) : List Text → List Text → Except FileFault (List Text)
  | place, [] => if (t.entry? place).isSome then .ok place else .error (.absent path)
  | place, part :: rest =>
    match t.entry? place with
    | none => .error (.absent path)
    | some .folder =>
      if part == Path.up then walk t path place.dropLast rest
      else if Path.nameReach < Path.nameSize part then .error (.tooLong path)
      else walk t path (place ++ [part]) rest
    | some _ => .error (.notDirectory path)

/-- The place that a path leads to; `shown` is the path that a fault shows. -/
def locate (t : FileTree) (shown : Text) (p : Path) : Except FileFault (List Text) := do
  let size := (← p.text.systemBytes).length
  if Path.reach < size then throw (.tooLong shown)
  t.walk shown (if p.isAbsolute then [] else t.cwd) (← p.parts.mapM Text.settled)

/-- What a path leads to, if there is something. A text that no file can be named by leads nowhere;
a name that is too long is a fault. -/
def lookup (t : FileTree) (p : Path) : Except FileFault (Option FileEntry) :=
  match t.locate p.text p with
  | .ok place => .ok (t.entry? place)
  | .error (.tooLong path) => .error (.tooLong path)
  | .error _ => .ok none

def pathExists (t : FileTree) (p : Path) : Except FileFault Bool := return (← t.lookup p).isSome

def pathIsFolder (t : FileTree) (p : Path) : Except FileFault Bool := do
  match ← t.lookup p with
  | some .folder => return true
  | _ => return false

def names (t : FileTree) (place : List Text) : List Text :=
  t.entries.filterMap fun e =>
    match e.1.getLast? with
    | some name => if e.1.dropLast == place then some name else none
    | none => none

/-- The paths in a folder whose names end in a given way. -/
def withSuffix (t : FileTree) (folder : Path) (ending : Text) : List Path :=
  match t.locate folder.text folder with
  | .ok place =>
    ((t.names place).filter fun n => ending.isSuffixOf n).map fun n =>
      { folder with parts := folder.parts ++ [n] }
  | _ => []

def put (t : FileTree) (place : List Text) (e : FileEntry) : FileTree :=
  { t with entries := JobMatrix.put (· == ·) t.entries place e }

/-- Puts something at a place, with the folders above it. -/
def insert (t : FileTree) (place : List Text) (e : FileEntry) : FileTree :=
  let place := place.map fun name => (name.settled.toOption).getD name
  let above := (List.range place.length).map fun n => place.take n
  let t := above.foldl (fun t p => if (t.entry? p).isSome then t else t.put p .folder) t
  t.put place e

/-- The place that a file would have that is written at a path. Its folder has to be there. -/
def placeFor (t : FileTree) (p : Path) : Except FileFault (List Text) :=
  match t.locate p.text p with
  | .error (.absent path) => do
    let place ← t.locate path p.parent
    if t.isFolder place then return place ++ [← p.name.settled] else throw (.notDirectory path)
  | r => r

def write (t : FileTree) (p : Path) (content : List UInt8) : Except FileFault FileTree := do
  let place ← t.placeFor p
  match t.entry? place with
  | some .sink => return t
  | _ => return t.put place (.file content)

end FileTree

end JobMatrix
