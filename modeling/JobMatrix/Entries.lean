import JobMatrix.Text

set_option autoImplicit false

/-!
Association lists in the order in which keys were first set.
-/

namespace JobMatrix

/-- `put same entries key value` sets the value of a key. A key that is there keeps its place and
its spelling, a new one goes to the end. -/
def put {κ α : Type} (same : κ → κ → Bool) : List (κ × α) → κ → α → List (κ × α)
  | [], key, value => [(key, value)]
  | (k, v) :: rest, key, value =>
    if same k key then (k, value) :: rest else (k, v) :: put same rest key value

def putAll {κ α : Type} (same : κ → κ → Bool) (entries pairs : List (κ × α)) : List (κ × α) :=
  pairs.foldl (fun es p => put same es p.1 p.2) entries

def find {κ α : Type} (same : κ → κ → Bool) : List (κ × α) → κ → Option α
  | [], _ => none
  | (k, v) :: rest, key => if same k key then some v else find same rest key

abbrev Entries (α : Type) := List (Text × α)

namespace Entries

variable {α : Type}

def set (entries : Entries α) (key : Text) (value : α) : Entries α :=
  put (· == ·) entries key value

def ofPairs (pairs : Entries α) : Entries α := putAll (· == ·) [] pairs

/-- The entries of the first list, overridden and extended by those of the second. -/
def update (entries changes : Entries α) : Entries α := putAll (· == ·) entries changes

def get? (entries : Entries α) (key : Text) : Option α := find (· == ·) entries key

def keys (entries : Entries α) : List Text := entries.map Prod.fst

/-- Equality whatever the order, for entries without repeated keys. -/
def same (eq : α → α → Bool) (entries others : Entries α) : Bool :=
  entries.length == others.length
    && entries.all fun e => (others.get? e.1).any (eq e.2)

end Entries

end JobMatrix
