import JobMatrix.Yaml.Fault

set_option autoImplicit false

/-!
Reading a YAML text character by character. The end of the text reads as NUL, which no YAML text
holds. Line breaks are the line feed, U+0085, U+2028 and U+2029: a text is read with every carriage
return turned into a line feed before.
-/

namespace JobMatrix.Yaml

def isBreak (c : Char) : Bool :=
  c == '\n' || c == '\u0085' || c == '\u2028' || c == '\u2029'

/-- A line break or the end of the text. -/
def endsLine (c : Char) : Bool := c == '\x00' || isBreak c

/-- What separates a word from the next: a space, a line break or the end. -/
def endsWord (c : Char) : Bool := c == ' ' || endsLine c

/-- What may follow an indicator: a space, a tab, a line break or the end. -/
def isGap (c : Char) : Bool := c == '\t' || endsWord c

/-- Letters and digits of ASCII, the low line and the hyphen. -/
def isNameChar (c : Char) : Bool := c.isAlphanum || c == '-' || c == '_'

def isHexDigit (c : Char) : Bool :=
  c.isDigit || ('a' ≤ c && c ≤ 'f') || ('A' ≤ c && c ≤ 'F')

def shown (c : Char) : String := Text.quoted (String.singleton c)

/-- The place after a character. A byte order mark takes no column. -/
def Mark.after (m : Mark) (c : Char) : Mark :=
  if isBreak c then ⟨m.index + 1, m.line + 1, 0⟩
  else if c == '\ufeff' then ⟨m.index + 1, m.line, m.column⟩
  else ⟨m.index + 1, m.line, m.column + 1⟩

/-- What is left of a text, and the place where it begins. -/
structure Cursor where
  rest : List Char
  mark : Mark
  deriving Repr, Inhabited

namespace Cursor

def start (text : List Char) : Cursor := ⟨text, ⟨0, 0, 0⟩⟩

def peek (c : Cursor) (n : Nat) : Char := (c.rest[n]?).getD '\x00'

def head (c : Cursor) : Char := c.rest.headD '\x00'

def next (c : Cursor) : Cursor :=
  match c.rest with
  | [] => c
  | ch :: rest => ⟨rest, c.mark.after ch⟩

def skip : Nat → Cursor → Cursor
  | 0, c => c
  | n + 1, c => skip n c.next

/-- `takeFrom p rest mark` reads while `p` holds. -/
def takeFrom (p : Char → Bool) : List Char → Mark → List Char × Cursor
  | [], m => ([], ⟨[], m⟩)
  | ch :: rest, m =>
    if p ch then
      let (cs, c) := takeFrom p rest (m.after ch)
      (ch :: cs, c)
    else ([], ⟨ch :: rest, m⟩)

/-- The characters read while `p` holds, and the cursor after them. -/
def take (c : Cursor) (p : Char → Bool) : List Char × Cursor := takeFrom p c.rest c.mark

def dropWhile (c : Cursor) (p : Char → Bool) : Cursor := (c.take p).2

def skipSpaces (c : Cursor) : Cursor := c.dropWhile (· == ' ')

def takeLine (c : Cursor) : List Char × Cursor := c.take fun ch => !isBreak ch

def skipLine (c : Cursor) : Cursor := c.takeLine.2

/-- How a line break stands in a scalar: the two Unicode separators as themselves, others as a
line feed. -/
def breakText (ch : Char) : Char := if ch == '\u2028' || ch == '\u2029' then ch else '\n'

def takeBreak (c : Cursor) : List Char × Cursor :=
  if isBreak c.head then ([breakText c.head], c.next) else ([], c)

/-- Whether a line with a document separator begins here. -/
def atSeparator (c : Cursor) : Bool :=
  let three := c.rest.take 3
  (three == ['-', '-', '-'] || three == ['.', '.', '.']) && isGap (c.peek 3)

end Cursor

abbrev Reading := Except Fault

/-- Stops with a problem at a place. -/
def stop {α : Type} (context : String) (since : Mark) (problem : String) (at_ : Mark) : Reading α :=
  .error (.report ⟨some context, some since, problem, at_⟩)

/-- Stops with a problem that has no context. -/
def stopPlain {α : Type} (problem : String) (at_ : Mark) : Reading α :=
  .error (.report ⟨none, none, problem, at_⟩)

/-- Skips the rest of a line, which may hold a comment and nothing else. -/
def skipComment (context : String) (since : Mark) (c : Cursor) : Reading Cursor :=
  let c := c.skipSpaces
  let c := if c.head == '#' then c.skipLine else c
  if endsLine c.head then .ok (c.takeBreak).2
  else stop context since ("expected a comment or a line break, but found " ++ shown c.head) c.mark

/-- The characters that a YAML text may hold. -/
def isAllowed (c : Char) : Bool :=
  let n := c.toNat
  n == 9 || n == 10 || n == 13 || (32 ≤ n && n ≤ 126) || n == 0x85 || (0xA0 ≤ n && n ≤ 0xD7FF)
    || (0xE000 ≤ n && n ≤ 0xFFFD) || 0x10000 ≤ n

/-- Refuses a text at its first character that is not allowed. -/
def checkCharacters (text : List Char) : Reading Unit :=
  let good := text.takeWhile isAllowed
  match text.drop good.length with
  | [] => .ok ()
  | c :: _ => .error (.character c good.length)

end JobMatrix.Yaml
