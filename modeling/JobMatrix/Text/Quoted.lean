import JobMatrix.Text
import JobMatrix.Text.Printable

set_option autoImplicit false

/-!
Quoted text, as messages show it: single quotes, unless the text holds a single quote and no
double one; what cannot be printed is escaped with the shortest of `\x`, `\u` and `\U`.
-/

namespace JobMatrix.Text

def hexDigit (n : Nat) : Char :=
  if n < 10 then Char.ofNat (48 + n) else Char.ofNat (87 + n)

/-- The last `width` hexadecimal digits of `n`. -/
def hexDigits : Nat → Nat → List Char
  | 0, _ => []
  | width + 1, n => hexDigits width (n / 16) ++ [hexDigit (n % 16)]

/-- The quote that encloses a text with these characters. -/
def quoteFor (single double : Bool) : Char :=
  if single && !double then '\x22' else '\x27'

/-- How one character stands between quotes. -/
def quoteChar (quote c : Char) : List Char :=
  if c == quote || c == '\\' then ['\\', c]
  else if c == '\t' then ['\\', 't']
  else if c == '\n' then ['\\', 'n']
  else if c == '\r' then ['\\', 'r']
  else if isPrintable c then [c]
  else if c.toNat < 0x100 then '\\' :: 'x' :: hexDigits 2 c.toNat
  else if c.toNat < 0x10000 then '\\' :: 'u' :: hexDigits 4 c.toNat
  else '\\' :: 'U' :: hexDigits 8 c.toNat

/-- How one code point stands between quotes. -/
def quoteCodePoint (quote : Char) : CodePoint → List Char
  | .char c => quoteChar quote c
  | c@(.surrogate _) => '\\' :: 'u' :: hexDigits 4 c.code

def quoteChars (t : Text) : List Char :=
  let quote := quoteFor (t.contains (.char '\x27')) (t.contains (.char '\x22'))
  quote :: t.flatMap (quoteCodePoint quote) ++ [quote]

def quoted (t : Text) : String := String.ofList (quoteChars t)

def quotedList (ts : List Text) : String := "[" ++ ", ".intercalate (ts.map quoted) ++ "]"

/-- How one byte stands between quotes: ASCII as itself, the rest as `\x` and two digits. -/
def quoteByte (quote : Char) (b : UInt8) : List Char :=
  let c := Char.ofNat b.toNat
  if c == quote || c == '\\' then ['\\', c]
  else if c == '\t' then ['\\', 't']
  else if c == '\n' then ['\\', 'n']
  else if c == '\r' then ['\\', 'r']
  else if 32 ≤ b.toNat && b.toNat < 127 then [c]
  else '\\' :: 'x' :: hexDigits 2 b.toNat

/-- A byte string between quotes, marked with a leading `b`. -/
def quotedBytes (bs : List UInt8) : String :=
  let quote := quoteFor (bs.contains 39) (bs.contains 34)
  String.ofList ('b' :: quote :: bs.flatMap (quoteByte quote) ++ [quote])

end JobMatrix.Text
