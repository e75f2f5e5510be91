import JobMatrix.Failure

set_option autoImplicit false

/-!
Values read for what is asked of them: a text, elements, entries. A value that cannot be read in
this way is a failure.
-/

namespace JobMatrix

namespace Value

def scalar (v : Value) : Except Failure Text :=
  match v.scalarText? with
  | some s => .ok s
  | none => .error .longInteger

/-- The text in which placeholders are looked for. -/
def readable : Value → Except Failure Text
  | .text s => .ok s
  | .bytes _ => .error .unreadableBytes
  | v => .error (.unreadable v.typeName)

def items (v : Value) : Except Failure (List Value) :=
  match v.items? with
  | some items => .ok items
  | none => .error (.notIterable v.typeName)

/-- The entry that an element of a list of pairs stands for. -/
def entry (index : Nat) (element : Value) : Except Failure (Value × Value) :=
  match element.items? with
  | none => .error (.elementNotPair index)
  | some [key, value] =>
    match key.unhashable? with
    | some kind => .error (.unhashable kind)
    | none => .ok (key, value)
  | some parts => .error (.elementLength index parts.length)

/-- The entries of a mapping, or those that a list of pairs stands for. -/
def entries : Value → Except Failure (List (Value × Value))
  | .map entries => .ok entries
  | v => do
    let elements ← v.items
    return ofPairs (← (elements.mapIdx entry).mapM id)

end Value

/-- Entries with their keys and values as text; keys with the same text are one key. -/
def scalarEntries (pairs : List (Value × Value)) : Except Failure (Entries Text) := do
  let texts ← pairs.mapM fun p => do
    match p.1.plain? with
    | some key => return (key, ← p.2.scalar)
    | none => throw .longInteger
  return Entries.ofPairs texts

end JobMatrix
