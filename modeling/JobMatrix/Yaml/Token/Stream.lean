import JobMatrix.Yaml.Token.Property
import JobMatrix.Yaml.Token.Scalar

set_option autoImplicit false

/-!
The token stream of a text. A key of a mapping is seen to be one only when its colon comes, so the
tokens since a possible key wait, and the tokens that mark the key and the start of its mapping go
in front of them afterwards. A stream that stops with a fault still holds the tokens that no longer
waited: a fault of the grammar among those is met first.
-/

namespace JobMatrix.Yaml

/-- A token that may turn out to begin a key. -/
structure PossibleKey where
  depth : Nat
  position : Nat
  /-- Whether the block around it asks for a key here. -/
  required : Bool
  mark : Mark
  deriving Repr

structure Lexer where
  cursor : Cursor
  waiting : List Token := []
  released : Nat := 0
  /-- The column of the block around the cursor, and those of the blocks around it. -/
  indent : Int := -1
  indents : List Int := []
  depth : Nat := 0
  keyAllowed : Bool := true
  keys : List PossibleKey := []

namespace Lexer

def mark (l : Lexer) : Mark := l.cursor.mark

def column (l : Lexer) : Int := l.cursor.mark.column

def push (l : Lexer) (t : Token) : Lexer := { l with waiting := l.waiting ++ [t] }

def nextPosition (l : Lexer) : Nat := l.released + l.waiting.length

/-- Puts a token in front of the one with a number. -/
def insertAt (l : Lexer) (position : Nat) (t : Token) : Lexer :=
  { l with waiting := l.waiting.insertIdx (position - l.released) t }

def missingColon {α : Type} (key : PossibleKey) (l : Lexer) : Reading α :=
  stop "while scanning a simple key" key.mark "could not find expected ':'" l.mark

/-- A key lies on one line and has at most this many characters. -/
def keyReach : Nat := 1024

/-- Gives up the possible keys that are out of reach. -/
def dropStaleKeys (l : Lexer) : Reading Lexer :=
  let stale (k : PossibleKey) : Bool :=
    k.mark.line != l.mark.line || keyReach < l.mark.index - k.mark.index
  match l.keys.find? fun k => stale k && k.required with
  | some k => missingColon k l
  | none => .ok { l with keys := l.keys.filter fun k => !stale k }

/-- Gives up the possible key of this depth. -/
def dropKey (l : Lexer) : Reading Lexer :=
  match l.keys.find? fun k => k.depth == l.depth && k.required with
  | some k => missingColon k l
  | none => .ok { l with keys := l.keys.filter fun k => k.depth != l.depth }

/-- Notes that the next token may begin a key. -/
def noteKey (l : Lexer) : Reading Lexer := do
  if l.keyAllowed then
    let required := l.depth == 0 && l.indent == l.column
    let l ← l.dropKey
    return { l with keys := ⟨l.depth, l.nextPosition, required, l.mark⟩ :: l.keys }
  else return l

/-- Ends the blocks that are indented more than a column. -/
def unwindFrom (column : Int) : List Int → Lexer → Lexer
  | [], l => l
  | outer :: rest, l =>
    if column < l.indent then
      unwindFrom column rest { l.push (.empty .blockEnd l.mark) with indent := outer, indents := rest }
    else l

/-- Ends the blocks that are indented more than a column; inside brackets there are none. -/
def unwind (l : Lexer) (column : Int) : Lexer :=
  if l.depth = 0 then unwindFrom column l.indents l else l

/-- Begins a block at a column, if it is indented more than the one around it. -/
def indentTo (l : Lexer) (column : Int) : Option Lexer :=
  if l.indent < column then some { l with indent := column, indents := l.indent :: l.indents }
  else none

/-- Reads an indicator of so many characters. -/
def indicator (l : Lexer) (kind : TokenKind) (size : Nat) : Lexer :=
  let c := l.cursor.skip size
  { l.push ⟨kind, l.mark, c.mark⟩ with cursor := c }

/-- Skips spaces, comments and line breaks. A line break outside brackets allows a key. -/
def skipBlank (depth : Nat) : List Char → Bool → Mark → Bool → Cursor × Bool
  | [], _, m, allowed => (⟨[], m⟩, allowed)
  | c :: rest, inComment, m, allowed =>
    if isBreak c then skipBlank depth rest false (m.after c) (allowed || depth == 0)
    else if inComment then skipBlank depth rest true (m.after c) allowed
    else if c == ' ' then skipBlank depth rest false (m.after c) allowed
    else if c == '#' then skipBlank depth rest true (m.after c) allowed
    else (⟨c :: rest, m⟩, allowed)

def seek (l : Lexer) : Lexer :=
  let c := if l.mark.index = 0 && l.cursor.head == '\ufeff' then l.cursor.next else l.cursor
  let (cursor, keyAllowed) := skipBlank l.depth c.rest false c.mark l.keyAllowed
  { l with cursor, keyAllowed }

/-- Ends the text: every block is closed. -/
def endStream (l : Lexer) : Reading Lexer := do
  let l ← (l.unwind (-1)).dropKey
  return { l.push (.empty .streamEnd l.mark) with keyAllowed := false, keys := [] }

def readDirectiveLine (l : Lexer) : Reading Lexer := do
  let l ← (l.unwind (-1)).dropKey
  let (t, cursor) ← readDirective l.cursor
  return { l.push t with keyAllowed := false, cursor }

def documentIndicator (l : Lexer) (kind : TokenKind) : Reading Lexer := do
  let l ← (l.unwind (-1)).dropKey
  return { l with keyAllowed := false }.indicator kind 3

def openBracket (l : Lexer) (kind : TokenKind) : Reading Lexer := do
  let l ← l.noteKey
  return { l with depth := l.depth + 1, keyAllowed := true }.indicator kind 1

def closeBracket (l : Lexer) (kind : TokenKind) : Reading Lexer := do
  let l ← l.dropKey
  return { l with depth := l.depth - 1, keyAllowed := false }.indicator kind 1

def comma (l : Lexer) : Reading Lexer := do
  let l ← { l with keyAllowed := true }.dropKey
  return l.indicator .flowEntry 1

/-- Begins a block here if the indentation asks for it. -/
def beginBlock (l : Lexer) (kind : TokenKind) : Lexer :=
  match l.indentTo l.column with
  | some deeper => deeper.push (.empty kind l.mark)
  | none => l

def blockEntry (l : Lexer) : Reading Lexer := do
  let l ← if l.depth = 0 then
      if l.keyAllowed then pure (l.beginBlock .blockSequenceStart)
      else stopPlain "sequence entries are not allowed here" l.mark
    else pure l
  let l ← { l with keyAllowed := true }.dropKey
  return l.indicator .blockEntry 1

def explicitKey (l : Lexer) : Reading Lexer := do
  let l ← if l.depth = 0 then
      if l.keyAllowed then pure (l.beginBlock .blockMappingStart)
      else stopPlain "mapping keys are not allowed here" l.mark
    else pure l
  let l ← { l with keyAllowed := l.depth == 0 }.dropKey
  return l.indicator .key 1

/-- A colon: what waits since the possible key of this depth is a key, or the key is empty. -/
def colon (l : Lexer) : Reading Lexer := do
  match l.keys.find? fun k => k.depth == l.depth with
  | some k =>
    let l := { l with keys := l.keys.filter fun k => k.depth != l.depth, keyAllowed := false }
    let l := l.insertAt k.position (.empty .key k.mark)
    let l := if l.depth = 0 then
        match l.indentTo k.mark.column with
        | some deeper => deeper.insertAt k.position (.empty .blockMappingStart k.mark)
        | none => l
      else l
    return l.indicator .value 1
  | none =>
    let l ← if l.depth = 0 then
        if l.keyAllowed then pure (l.beginBlock .blockMappingStart)
        else stopPlain "mapping values are not allowed here" l.mark
      else pure l
    let l ← { l with keyAllowed := l.depth == 0 }.dropKey
    return l.indicator .value 1

def keyLike (l : Lexer) (read : Cursor → Reading (Token × Cursor)) : Reading Lexer := do
  let l ← l.noteKey
  let (t, cursor) ← read l.cursor
  return { l.push t with keyAllowed := false, cursor }

def blockScalar (l : Lexer) : Reading Lexer := do
  let l ← { l with keyAllowed := true }.dropKey
  let (t, cursor) ← readBlock (l.indent + 1).toNat l.cursor
  return { l.push t with cursor }

def plainScalar (l : Lexer) : Reading Lexer := do
  let l ← l.noteKey
  let (t, endedLine, cursor) := readPlain (l.depth != 0) (l.indent + 1).toNat l.cursor
  return { l.push t with keyAllowed := endedLine, cursor }

/-- The characters that begin no plain scalar, gaps apart. -/
def indicators : List Char :=
  ['-', '?', ':', ',', '[', ']', '\x7b', '\x7d', '#', '&', '*', '!', '|', '>', '\x27', '\x22',
   '%', '@', '\x60']

/-- Whether a plain scalar begins here. A hyphen, and outside brackets a question mark or a colon,
begins one when no gap follows. -/
def atPlain (l : Lexer) : Bool :=
  let c := l.cursor.head
  !(isGap c || indicators.contains c)
    || (!isGap (l.cursor.peek 1) && (c == '-' || (l.depth == 0 && (c == '?' || c == ':'))))

/-- Whether the character here stands for itself before a gap, as it always does in brackets. -/
def beforeGap (l : Lexer) : Bool := isGap (l.cursor.peek 1)

def readToken (l : Lexer) : Reading Lexer :=
  let c := l.cursor.head
  let inFlow := l.depth != 0
  let lineStart := l.cursor.mark.column = 0
  if l.cursor.rest.isEmpty then l.endStream
  else if c == '%' && lineStart then l.readDirectiveLine
  else if c == '-' && lineStart && l.cursor.atSeparator then l.documentIndicator .documentStart
  else if c == '.' && lineStart && l.cursor.atSeparator then l.documentIndicator .documentEnd
  else if c == '[' then l.openBracket .flowSequenceStart
  else if c == '\x7b' then l.openBracket .flowMappingStart
  else if c == ']' then l.closeBracket .flowSequenceEnd
  else if c == '\x7d' then l.closeBracket .flowMappingEnd
  else if c == ',' then l.comma
  else if c == '-' && l.beforeGap then l.blockEntry
  else if c == '?' && (inFlow || l.beforeGap) then l.explicitKey
  else if c == ':' && (inFlow || l.beforeGap) then l.colon
  else if c == '*' || c == '&' then l.keyLike readAnchor
  else if c == '!' then l.keyLike readTag
  else if (c == '|' || c == '>') && !inFlow then l.blockScalar
  else if c == '\x27' || c == '\x22' then l.keyLike readQuoted
  else if l.atPlain then l.plainScalar
  else .error (.report ⟨some "while scanning for the next token", none,
    "found character " ++ shown c ++ " that cannot start any token", l.mark⟩)

def step (l : Lexer) : Reading Lexer := do
  let l ← l.seek.dropStaleKeys
  (l.unwind l.column).readToken

/-- Releases the tokens in front of every possible key. -/
def release (l : Lexer) : List Token × Lexer :=
  let held := (l.keys.map PossibleKey.position).min?.getD l.nextPosition
  let count := held - l.released
  (l.waiting.take count,
    { l with waiting := l.waiting.drop count, released := l.released + min count l.waiting.length })

end Lexer

/-- The tokens of a text, and the fault that ends them, if there is one. -/
structure TokenStream where
  tokens : List Token
  fault : Option Fault

/-- Reads tokens until the end of the text; the count bounds their number. -/
def TokenStream.readFrom : Nat → Lexer → TokenStream
  | 0, l => ⟨l.waiting, none⟩
  | n + 1, l =>
    match l.step with
    | .error e => ⟨[], some e⟩
    | .ok l =>
      if l.cursor.rest.isEmpty && l.waiting.getLast?.any (·.kind == .streamEnd) then ⟨l.waiting, none⟩
      else
        match l.dropStaleKeys with
        | .error e => ⟨[], some e⟩
        | .ok l =>
          let (ready, l) := l.release
          let rest := readFrom n l
          ⟨ready ++ rest.tokens, rest.fault⟩

def TokenStream.ofText (text : List Char) : TokenStream :=
  let start := Cursor.start text
  let rest := readFrom (text.length + 2) { cursor := start, released := 1 }
  ⟨.empty .streamStart start.mark :: rest.tokens, rest.fault⟩

end JobMatrix.Yaml
