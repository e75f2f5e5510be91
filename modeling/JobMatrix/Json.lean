import JobMatrix.Value

set_option autoImplicit false

/-!
JSON documents and their texts. Code points outside ASCII stand for themselves; a number is kept as
its literal, so that no number changes on the way to its text.
-/

namespace JobMatrix

inductive Json where
  | null
  | bool (b : Bool)
  | number (literal : String)
  | string (s : Text)
  | array (items : List Json)
  | object (members : List (Text × Json))
  deriving Repr, Inhabited

namespace Json

/-- How a character stands inside a JSON string. -/
def escapeChar (c : Char) : List Char :=
  if c == '\x22' then ['\\', '\x22']
  else if c == '\\' then ['\\', '\\']
  else if c == '\n' then ['\\', 'n']
  else if c == '\r' then ['\\', 'r']
  else if c == '\t' then ['\\', 't']
  else if c == '\x08' then ['\\', 'b']
  else if c == '\x0c' then ['\\', 'f']
  else if c.toNat < 32 then '\\' :: 'u' :: Text.hexDigits 4 c.toNat
  else [c]

/-- How a code point stands inside a JSON string. -/
def escapeCodePoint : CodePoint → Text
  | .char c => Text.ofChars (escapeChar c)
  | .surrogate n => [.surrogate n]

def stringText (s : Text) : Text :=
  .char '\x22' :: s.flatMap escapeCodePoint ++ [.char '\x22']

/-- What stands between two items and between a name and its value. -/
structure Separators where
  item : Text
  name : Text

def Separators.spaced : Separators := ⟨", ", ": "⟩

def Separators.tight : Separators := ⟨",", ":"⟩

mutual

def line (sep : Separators) : Json → Text
  | .null => "null"
  | .bool b => if b then "true" else "false"
  | .number literal => literal
  | .string s => stringText s
  | .array items => "[" ++ Text.joined sep.item (itemLines sep items) ++ "]"
  | .object members => "\x7b" ++ Text.joined sep.item (memberLines sep members) ++ "\x7d"

def itemLines (sep : Separators) : List Json → List Text
  | [] => []
  | v :: rest => line sep v :: itemLines sep rest

def memberLines (sep : Separators) : List (Text × Json) → List Text
  | [] => []
  | (k, v) :: rest => (stringText k ++ sep.name ++ line sep v) :: memberLines sep rest

end

/-- A line break and the blanks of a level, two for each. -/
def newline (level : Nat) : String := String.ofList ('\n' :: List.replicate (2 * level) ' ')

/-- Items one below the other between brackets; nothing between them when there is none. -/
def block (opening closing : String) (level : Nat) (items : List Text) : Text :=
  if items.isEmpty then opening ++ closing
  else (opening ++ newline (level + 1) : String)
    ++ Text.joined ("," ++ newline (level + 1) : String) items ++ (newline level ++ closing : String)

mutual

/-- The text with one item or member on each line. -/
def indented (level : Nat) : Json → Text
  | .null => "null"
  | .bool b => if b then "true" else "false"
  | .number literal => literal
  | .string s => stringText s
  | .array items => block "[" "]" level (indentedItems (level + 1) items)
  | .object members => block "\x7b" "\x7d" level (indentedMembers (level + 1) members)

def indentedItems (level : Nat) : List Json → List Text
  | [] => []
  | v :: rest => indented level v :: indentedItems level rest

def indentedMembers (level : Nat) : List (Text × Json) → List Text
  | [] => []
  | (k, v) :: rest => (stringText k ++ ": " ++ indented level v) :: indentedMembers level rest

end

end Json

/-- Why a value has no JSON form. -/
inductive JsonFault where
  | unsupported (kind : String)
  | unsupportedKey (kind : String)
  | circular
  | longInteger
  deriving DecidableEq, Repr

namespace Value

def floatJson : Binary64 → String
  | .nan _ => "NaN"
  | .infinite s => if s then "-Infinity" else "Infinity"
  | x => x.text

/-- The member name of a key: scalars other than text by their JSON literal. -/
def jsonKey : Value → Except JsonFault Text
  | .text s => .ok s
  | .null => .ok "null"
  | .bool b => .ok (if b then "true" else "false" : String)
  | .int n => match Integer.text? n with
    | some s => .ok s
    | none => .error .longInteger
  | .float x => .ok (floatJson x)
  | v => .error (.unsupportedKey v.kindName)

mutual

/-- The JSON form of a value. The first fault in reading order is reported. -/
def toJson : Value → Except JsonFault Json
  | .null => .ok .null
  | .bool b => .ok (.bool b)
  | .int n => match Integer.text? n with
    | some s => .ok (.number s)
    | none => .error .longInteger
  | .float x => .ok (.number (floatJson x))
  | .text s => .ok (.string s)
  | .list items => do return .array (← itemsToJson items)
  | .tuple items => do return .array (← itemsToJson items)
  | .map entries => do return .object (← entriesToJson entries)
  | .again _ => .error .circular
  | .bytes _ => .error (.unsupported "bytes")
  | .date _ => .error (.unsupported "date")
  | .timestamp _ => .error (.unsupported "datetime")
  | .set _ => .error (.unsupported "set")

def itemsToJson : List Value → Except JsonFault (List Json)
  | [] => .ok []
  | v :: rest => do
    let j ← toJson v
    let js ← itemsToJson rest
    return j :: js

def entriesToJson : List (Value × Value) → Except JsonFault (List (Text × Json))
  | [] => .ok []
  | (k, v) :: rest => do
    let name ← jsonKey k
    let j ← toJson v
    let js ← entriesToJson rest
    return (name, j) :: js

end

end Value

end JobMatrix
