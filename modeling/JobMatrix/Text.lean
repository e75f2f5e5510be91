set_option autoImplicit false

/-!
Texts. Documents and requests can write surrogates that stand alone, which are no characters; so a
text is a list of code points, and has a form as bytes only when all of them are characters.
-/

namespace JobMatrix

/-- A character, or a surrogate that stands alone, by its offset from the first one. -/
inductive CodePoint where
  | char (c : Char)
  | surrogate (n : Fin 2048)
  deriving DecidableEq, Repr, Inhabited

namespace CodePoint

instance : Coe Char CodePoint := ⟨.char⟩

def code : CodePoint → Nat
  | .char c => c.toNat
  | .surrogate n => 0xD800 + n.val

/-- The code point of a number below the last one. -/
def ofCode? (n : Nat) : Option CodePoint :=
  if h : 0xD800 ≤ n ∧ n < 0xE000 then some (.surrogate ⟨n - 0xD800, by omega⟩)
  else if n < 0x110000 then some (.char (Char.ofNat n))
  else none

def isSurrogate : CodePoint → Bool
  | .char _ => false
  | .surrogate _ => true

/-- The character, or the replacement character for a surrogate: no class of characters that a
reader asks for has it. -/
def shownChar : CodePoint → Char
  | .char c => c
  | .surrogate _ => '\ufffd'

end CodePoint

abbrev Text := List CodePoint

namespace Text

def ofChars (cs : List Char) : Text := cs.map .char

def ofString (s : String) : Text := ofChars s.toList

instance : Coe String Text := ⟨ofString⟩

/-- The characters, with replacement characters for surrogates. -/
def chars (t : Text) : List Char := t.map CodePoint.shownChar

/-- The text as it is shown where only characters can be. -/
def shown (t : Text) : String := String.ofList t.chars

def joined (between : Text) (parts : List Text) : Text := between.intercalate parts

/-- Whether one text comes before another in code point order. -/
def before : Text → Text → Bool
  | _, [] => false
  | [], _ :: _ => true
  | a :: as, b :: bs => a.code < b.code || a.code == b.code && before as bs

def startsWith (t start : Text) : Bool := start.isPrefixOf t

/-- The parts of a text between the places where a character stands. -/
def splitAt (t : Text) (c : Char) : List Text := t.splitOn (.char c)

end Text

end JobMatrix
