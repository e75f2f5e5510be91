import JobMatrix.Json
import JobMatrix.Json.Read

set_option autoImplicit false

/-!
JSON text as it is exchanged: on one line and in ASCII, where any other character is written by its
code units; and the value that such a text stands for.
-/

namespace JobMatrix

/-- The code units: a character above the first `2 ^ 16` takes a high and a low surrogate. -/
def CodePoint.units : CodePoint → Text
  | .char c =>
    if c.toNat < 0x10000 then [.char c]
    else
      let n := c.toNat - 0x10000
      [.surrogate (Fin.ofNat 2048 (n / 0x400)), .surrogate (Fin.ofNat 2048 (0x400 + n % 0x400))]
  | .surrogate n => [.surrogate n]

namespace Json

/-- The characters of ASCII that can be printed. -/
def isPlain (c : Char) : Bool := 0x20 ≤ c.toNat && c.toNat < 0x7f

def unitEscape (unit : CodePoint) : List Char := '\\' :: 'u' :: Text.hexDigits 4 unit.code

/-- How a code point stands in ASCII. -/
def asciiCodePoint : CodePoint → List Char
  | .char c => if isPlain c then [c] else (CodePoint.char c).units.flatMap unitEscape
  | .surrogate n => unitEscape (.surrogate n)

def ascii (t : Text) : List Char := t.flatMap asciiCodePoint

end Json

namespace Value

/-- A number that is read: an integer when there is neither a point nor an exponent. -/
def ofNumber? (literal : String) : Option Value :=
  if literal.toList.all fun c => c.isDigit || c == '-' then
    (Integer.read 10 literal.toList).toOption.map .int
  else (Binary64.read? 0 literal.toList).map .float

mutual

/-- The value that a document stands for. Of several members with one name the last one counts. -/
def ofJson? : Json → Option Value
  | .null => some .null
  | .bool b => some (.bool b)
  | .number literal => ofNumber? literal
  | .string s => some (.text s)
  | .array items => do return .list (← ofItems? items)
  | .object members => do return .map (ofPairs (← ofMembers? members))

def ofItems? : List Json → Option (List Value)
  | [] => some []
  | j :: rest => do
    let v ← ofJson? j
    let vs ← ofItems? rest
    return v :: vs

def ofMembers? : List (Text × Json) → Option (List (Value × Value))
  | [] => some []
  | (name, j) :: rest => do
    let v ← ofJson? j
    let vs ← ofMembers? rest
    return (.text name, v) :: vs

end

end Value

end JobMatrix
