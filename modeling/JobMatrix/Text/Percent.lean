import JobMatrix.Text.Utf8

set_option autoImplicit false

/-!
Percent escapes. Unreserved characters (ASCII letters and digits, `_`, `.`, `-`, `~`) stand for
themselves; every other character becomes one escape for each byte of its UTF-8 form. A text that
has no such form cannot be escaped.
-/

namespace JobMatrix.Text

def isUnreserved (c : Char) : Bool :=
  c.isAlphanum || c == '_' || c == '.' || c == '-' || c == '~'

def upperHexDigit (n : Nat) : Char :=
  if n < 10 then Char.ofNat (48 + n) else Char.ofNat (55 + n)

def escapeByte (b : UInt8) : List Char :=
  ['%', upperHexDigit (b.toNat / 16), upperHexDigit (b.toNat % 16)]

def escapeChar (c : Char) : List Char :=
  if isUnreserved c then [c] else (String.utf8EncodeChar c).flatMap escapeByte

def percentEscape (t : Text) : Except EncodeError Text := do
  return ofChars ((← t.characters).flatMap escapeChar)

end JobMatrix.Text
