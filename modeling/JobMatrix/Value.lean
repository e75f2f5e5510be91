import JobMatrix.Number.Decimal
import JobMatrix.Text.Quoted
import JobMatrix.Calendar
import JobMatrix.Entries

set_option autoImplicit false

/-!
Data as documents and declarations hold it: scalars, sequences, sets and mappings. A value can be
met again inside itself; such a place holds `again` with the kind of the value. Three texts belong
to a value: the literal form that shows its structure, the plain form that shows a text as itself,
and the scalar form that stands in environment variables and matrix cells.
-/

namespace JobMatrix

/-- The kinds of values that can hold themselves. -/
inductive Recurring where
  | list
  | map
  deriving DecidableEq, Repr

inductive Value where
  | null
  | bool (b : Bool)
  | int (n : Int)
  | float (x : Binary64)
  | text (s : Text)
  | bytes (bs : List UInt8)
  | date (d : Date)
  | timestamp (t : Timestamp)
  | list (items : List Value)
  | tuple (items : List Value)
  | set (items : List Value)
  | map (entries : List (Value × Value))
  | again (kind : Recurring)
  deriving Repr, Inhabited

namespace Value

/-- The name of a value's kind, as messages give it. -/
def kindName : Value → String
  | .null => "NoneType"
  | .bool _ => "bool"
  | .int _ => "int"
  | .float _ => "float"
  | .text _ => "str"
  | .bytes _ => "bytes"
  | .date _ => "date"
  | .timestamp _ => "datetime"
  | .list _ => "list"
  | .tuple _ => "tuple"
  | .set _ => "set"
  | .map _ => "dict"
  | .again .list => "list"
  | .again .map => "dict"

/-- The name of a value's kind with the group of kinds that it belongs to. -/
def typeName : Value → String
  | .date _ => "datetime.date"
  | .timestamp _ => "datetime.datetime"
  | v => v.kindName

/-- A duration of whole seconds, as days and seconds of a day. -/
def durationLiteral (seconds : Int) : String :=
  let days := seconds.fdiv 86400
  let rest := seconds.fmod 86400
  let parts := (if days = 0 then [] else ["days=" ++ toString days])
    ++ (if rest = 0 then [] else ["seconds=" ++ toString rest])
  "datetime.timedelta(" ++ (if parts.isEmpty then "0" else ", ".intercalate parts) ++ ")"

def dateLiteral (d : Date) : String :=
  "datetime.date(" ++ ", ".intercalate (([d.year, d.month, d.day] : List Nat).map toString) ++ ")"

/-- Seconds and microseconds are left out when they and all that follows them are zero. -/
def timestampLiteral (t : Timestamp) : String :=
  let fields : List Nat := [t.date.year, t.date.month, t.date.day, t.hour, t.minute]
    ++ (if t.microsecond ≠ 0 then [t.second, t.microsecond]
        else if t.second ≠ 0 then [t.second] else [])
  let zone := match t.offset with
    | none => []
    | some 0 => ["tzinfo=datetime.timezone.utc"]
    | some s => ["tzinfo=datetime.timezone(" ++ durationLiteral s ++ ")"]
  "datetime.datetime(" ++ ", ".intercalate (fields.map toString ++ zone) ++ ")"

mutual

/-- The literal form. There is none when an integer is too long to print. -/
def literal? : Value → Option String
  | .null => some "None"
  | .bool b => some (if b then "True" else "False")
  | .int n => Integer.text? n
  | .float x => some x.text
  | .text s => some (Text.quoted s)
  | .bytes bs => some (Text.quotedBytes bs)
  | .date d => some (dateLiteral d)
  | .timestamp t => some (timestampLiteral t)
  | .list items => (literals? items).map fun ls => "[" ++ ", ".intercalate ls ++ "]"
  | .tuple items => (literals? items).map fun ls =>
      match ls with
      | [l] => "(" ++ l ++ ",)"
      | _ => "(" ++ ", ".intercalate ls ++ ")"
  | .set items => (literals? items).map fun ls =>
      if ls.isEmpty then "set()" else "\x7b" ++ ", ".intercalate ls ++ "\x7d"
  | .map entries => (entryLiterals? entries).map fun ls =>
      "\x7b" ++ ", ".intercalate ls ++ "\x7d"
  | .again .list => some "[...]"
  | .again .map => some "\x7b...\x7d"

def literals? : List Value → Option (List String)
  | [] => some []
  | v :: rest => do
    let l ← literal? v
    let ls ← literals? rest
    some (l :: ls)

def entryLiterals? : List (Value × Value) → Option (List String)
  | [] => some []
  | (k, v) :: rest => do
    let key ← literal? k
    let value ← literal? v
    let ls ← entryLiterals? rest
    some ((key ++ ": " ++ value) :: ls)

end

/-- The plain form: texts and dates as themselves, the rest in literal form. -/
def plain? : Value → Option Text
  | .text s => some s
  | .date d => some d.text
  | .timestamp t => some t.text
  | v => v.literal?.map Text.ofString

/-- The scalar form: truth values in lower case, nothing for null, the rest in plain form. -/
def scalarText? : Value → Option Text
  | .bool b => some (if b then "true" else "false")
  | .null => some ""
  | v => v.plain?

/-- The plain form, or nothing for an integer too long to print. -/
def shown (v : Value) : Text := v.plain?.getD []

def isNull : Value → Bool
  | .null => true
  | _ => false

/-- Whether a value counts as something: not null, false, zero or empty. -/
def isPresent : Value → Bool
  | .null => false
  | .bool b => b
  | .int n => n != 0
  | .float x => x.toInt? != some 0
  | .text s => !s.isEmpty
  | .bytes bs => !bs.isEmpty
  | .date _ | .timestamp _ => true
  | .list items | .tuple items | .set items => !items.isEmpty
  | .map entries => !entries.isEmpty
  | .again _ => true

/-- What the elements of a value are, when it has elements. -/
def elements? : Value → Option (List Value)
  | .list items | .tuple items | .set items => some items
  | .map entries => some (entries.map Prod.fst)
  | _ => none

/-- The elements of a value, where a text is taken for its characters and bytes for numbers. -/
def items? : Value → Option (List Value)
  | .text s => some (s.map fun c => .text [c])
  | .bytes bs => some (bs.map fun b => .int b.toNat)
  | v => v.elements?

def ofText? : Option Text → Value
  | some s => .text s
  | none => .null

/-- A text, a truth value or a number. -/
def isScalar : Value → Bool
  | .text _ | .bool _ | .int _ | .float _ => true
  | _ => false

mutual

/-- The kind of the part of a value that keeps it from being a key, if there is one: lists, sets
and mappings cannot be keys, and neither can what holds them. -/
def unhashable? : Value → Option String
  | .list _ | .again .list => some "list"
  | .set _ => some "set"
  | .map _ | .again .map => some "dict"
  | .tuple items => firstUnhashable? items
  | _ => none

def firstUnhashable? : List Value → Option String
  | [] => none
  | v :: rest => (unhashable? v).or (firstUnhashable? rest)

end

/-- A number, with a truth value counted as 0 or 1, that is an integer. -/
def integer? : Value → Option Int
  | .bool b => some (if b then 1 else 0)
  | .int n => some n
  | .float x => x.toInt?
  | _ => none

mutual

/-- Equality of values: numbers by their value, mappings whatever their order. -/
def same : Value → Value → Bool
  | .null, .null => true
  | .text s, .text t => s == t
  | .bytes a, .bytes b => a == b
  | .date a, .date b => a == b
  | .timestamp a, .timestamp b => a.equal b
  | .list a, .list b => sameItems a b
  | .tuple a, .tuple b => sameItems a b
  | .set a, .set b => a.length == b.length && sameMembers a b
  | .map a, .map b => a.length == b.length && sameEntries a b
  | .again a, .again b => a == b
  | .float x, .float y => x.same y
  | .bool b, w => w.integer? == some (if b then 1 else 0)
  | .int n, w => w.integer? == some n
  | .float x, w => x.toInt?.isSome && w.integer? == x.toInt?
  | _, _ => false

def sameItems : List Value → List Value → Bool
  | [], [] => true
  | v :: vs, w :: ws => same v w && sameItems vs ws
  | _, _ => false

/-- Every member of the first list is in the second. -/
def sameMembers : List Value → List Value → Bool
  | [], _ => true
  | v :: vs, ws => ws.any (fun w => same v w) && sameMembers vs ws

/-- Every entry of the first list is in the second. -/
def sameEntries : List (Value × Value) → List (Value × Value) → Bool
  | [], _ => true
  | (k, v) :: es, others => others.any (fun e => same k e.1 && same v e.2) && sameEntries es others

end

/-- Sets a key of a mapping. -/
def putKey {α : Type} (entries : List (Value × α)) (key : Value) (value : α) : List (Value × α) :=
  put same entries key value

/-- A mapping from pairs: an equal key takes the later value. -/
def ofPairs (pairs : List (Value × Value)) : List (Value × Value) := putAll same [] pairs

end Value

end JobMatrix
