import JobMatrix.Failure

set_option autoImplicit false

/-!
Job matrices. A declaration lists axes with arbitrary values; a matrix has the values as text; its
axes are checked when a job takes it over: named by text, pairwise different, none without values.
-/

namespace JobMatrix

structure Axis where
  name : Text
  values : List Text
  deriving DecidableEq, Repr

/-- Axes as declared, in order, with repetitions, with the values as text. -/
structure Matrix where
  axes : List (Value × List Text)

namespace Matrix

def cell (job axis v : Value) : Except Failure Text :=
  if v.isScalar then
    match v.scalarText? with
    | some s => .ok s
    | none => .error .longInteger
  else .error (.invalid ⟨.cellNotScalar v.kindName, job, axis⟩)

/-- One declared axis. A complaint about its values names the empty text when no job is known. -/
def axisOf (job : Value) (axis values : Value) : Except Failure (Value × List Text) :=
  match values.elements? with
  | none => .error (.invalid ⟨.axisNotList, job, axis⟩)
  | some items => do
    let owner := if job.isPresent then job else .text []
    return (axis, ← items.mapM (cell owner axis))

/-- The matrix of a declaration; `job` is null when the declaration belongs to no job yet. -/
def ofPairs (job : Value) (pairs : List (Value × Value)) : Except Failure Matrix := do
  return ⟨← pairs.mapM fun p => axisOf job p.1 p.2⟩

/-- The matrix of axes in a mapping, followed by axes that are called by name. -/
def gathered (axes : List (Value × Value)) (named : Entries Value) : Except Failure Matrix := do
  let signature : Signature :=
    { operation := "matrix", optional := ["axes"].map Text.ofString, takesOthers := true }
  match signature.bind [Value.map axes] named with
  | .error fault => throw (.call fault)
  | .ok b => ofPairs .null (axes ++ b.others.map fun a => (.text a.1, a.2))

def names (m : Matrix) : List Value := m.axes.map Prod.fst

def size (m : Matrix) : Nat := m.axes.length

def values (m : Matrix) (axis : Value) : Except Failure (List Text) :=
  match find Value.same m.axes axis with
  | some vs => .ok vs
  | none => .error (.missing axis)

/-- Checks the axes in order, given the names that came before. -/
def checkAxes (job : Value) : List Text → List (Value × List Text) → Except Failure (List Axis)
  | _, [] => .ok []
  | seen, (name, vs) :: rest =>
    let complain (c : Complaint) (axis : Value) : Except Failure (List Axis) :=
      .error (.invalid ⟨c, job, axis⟩)
    match name with
    | .text s =>
      if Text.isBlankText s then complain .axisUnnamed name
      else if seen.contains s then complain .axisRepeated name
      else if vs.isEmpty then complain .axisEmpty name
      else do return ⟨s, vs⟩ :: (← checkAxes job (s :: seen) rest)
    | _ => match name.plain? with
      | some s => complain .axisUnnamed (.text s)
      | none => .error .longInteger

/-- The checked axes, or a complaint about the first axis that has a fault. -/
def check (m : Matrix) (job : Value) : Except Failure (List Axis) := checkAxes job [] m.axes

def ofAxes (axes : List Axis) : Matrix := ⟨axes.map fun a => (.text a.name, a.values)⟩

def same (m n : Matrix) : Bool :=
  m.size == n.size && (m.axes.zip n.axes).all fun p => p.1.1.same p.2.1 && p.1.2 == p.2.2

/-- The kind of the first name that keeps a matrix from being a key, if there is one. -/
def unhashable? (m : Matrix) : Option String := Value.firstUnhashable? m.names

end Matrix

end JobMatrix
