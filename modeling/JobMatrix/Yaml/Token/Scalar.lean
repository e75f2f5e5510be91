import JobMatrix.Yaml.Token
import JobMatrix.Number.Decimal

set_option autoImplicit false

/-!
Reading scalars: plain ones, quoted ones with folded lines and escapes, and block scalars with
their indentation and their treatment of line breaks at the end. Each loop is given a bound on its
rounds; every round reads at least one character.
-/

namespace JobMatrix.Yaml

/-! ### Plain scalars -/

/-- The characters that end a plain scalar inside brackets. -/
def flowMarks : List Char := [',', '?', '[', ']', '\x7b', '\x7d']

/-- The length of the run of a plain scalar at the start of `rest`. A colon ends it before a gap,
and in brackets before a bracket or a comma too. -/
def plainRun (inFlow : Bool) : List Char → Nat
  | [] => 0
  | ch :: rest =>
    let after := rest.headD '\x00'
    if isGap ch then 0
    else if ch == ':' && (isGap after || (inFlow && [',', '[', ']', '\x7b', '\x7d'].contains after))
    then 0
    else if inFlow && flowMarks.contains ch then 0
    else 1 + plainRun inFlow rest

/-- The line breaks and spaces between two lines of a plain scalar: none when a document separator
comes next. -/
def plainBreaks : Nat → Cursor → Option (List Char) × Cursor
  | 0, c => (some [], c)
  | n + 1, c =>
    if c.head == ' ' then plainBreaks n c.next
    else if isBreak c.head then
      let (b, c') := c.takeBreak
      if c'.atSeparator then (none, c')
      else
        let (more, c'') := plainBreaks n c'
        (more.map (b ++ ·), c'')
    else (some [], c)

/-- What stands between two runs of a plain scalar, folded; it is empty where the scalar ends. The
flag tells whether a line was ended. -/
def plainSpaces (c : Cursor) : List Char × Bool × Cursor :=
  let (spaces, c) := c.take (· == ' ')
  if isBreak c.head then
    let (b, c) := c.takeBreak
    if c.atSeparator then ([], true, c)
    else
      match plainBreaks (c.rest.length + 1) c with
      | (none, c) => ([], true, c)
      | (some more, c) =>
        if b != ['\n'] then (b ++ more, true, c)
        else if more.isEmpty then ([' '], true, c)
        else (more, true, c)
  else (spaces, false, c)

/-- What has been read of a plain scalar: its text, its end, the cursor, and whether the last line
was ended. -/
structure PlainRead where
  text : List Char
  stop : Mark
  cursor : Cursor
  endedLine : Bool

/-- Reads the runs of a plain scalar. `indent` is the least column that its further lines have
outside brackets, `spaces` what stood before the next run. -/
def readPlainFrom (inFlow : Bool) (indent : Nat) : Nat → List Char → PlainRead → PlainRead
  | 0, _, r => r
  | n + 1, spaces, r =>
    let size := plainRun inFlow r.cursor.rest
    if r.cursor.head == '#' || size = 0 then r
    else
      let after := r.cursor.skip size
      let text := r.text ++ spaces ++ r.cursor.rest.take size
      let (spaces, endedLine, c) := plainSpaces after
      let r := ⟨text, after.mark, c, endedLine⟩
      if spaces.isEmpty || c.head == '#' || (!inFlow && c.mark.column < indent) then r
      else readPlainFrom inFlow indent n spaces r

def readPlain (inFlow : Bool) (indent : Nat) (c : Cursor) : Token × Bool × Cursor :=
  let r := readPlainFrom inFlow indent (c.rest.length + 1) [] ⟨[], c.mark, c, false⟩
  (⟨.scalar (.ofChars r.text) true, c.mark, r.stop⟩, r.endedLine, r.cursor)

/-! ### Quoted scalars -/

def escapes : List (Char × Char) :=
  [('0', '\x00'), ('a', '\x07'), ('b', '\x08'), ('t', '\t'), ('\t', '\t'), ('n', '\n'),
   ('v', '\x0b'), ('f', '\x0c'), ('r', '\r'), ('e', '\x1b'), (' ', ' '), ('\x22', '\x22'),
   ('\\', '\\'), ('/', '/'), ('N', '\u0085'), ('_', '\u00a0'), ('L', '\u2028'), ('P', '\u2029')]

/-- The number of digits after the letter of a numeric escape. -/
def escapeSize? (c : Char) : Option Nat :=
  if c == 'x' then some 2 else if c == 'u' then some 4 else if c == 'U' then some 8 else none

def hexValue (digits : List Char) : Nat :=
  digits.foldl (fun n d => n * 16 + (Integer.digitOf? d).getD 0) 0

/-- The breaks between two lines of a quoted scalar. -/
def quotedBreaks (since : Mark) : Nat → Cursor → Reading (List Char × Cursor)
  | 0, c => .ok ([], c)
  | n + 1, c =>
    if c.atSeparator then
      stop "while scanning a quoted scalar" since "found unexpected document separator" c.mark
    else
      let c := c.dropWhile fun ch => ch == ' ' || ch == '\t'
      if isBreak c.head then do
        let (b, c) := c.takeBreak
        let (more, c) ← quotedBreaks since n c
        return (b ++ more, c)
      else .ok ([], c)

/-- The spaces and breaks between two words of a quoted scalar, folded. -/
def quotedSpaces (since : Mark) (c : Cursor) : Reading (List Char × Cursor) :=
  let (spaces, c) := c.take fun ch => ch == ' ' || ch == '\t'
  if c.rest.isEmpty then
    stop "while scanning a quoted scalar" since "found unexpected end of stream" c.mark
  else if isBreak c.head then do
    let (b, c) := c.takeBreak
    let (more, c) ← quotedBreaks since (c.rest.length + 1) c
    if b != ['\n'] then return (b ++ more, c)
    else if more.isEmpty then return ([' '], c)
    else return (more, c)
  else .ok (spaces, c)

/-- What an escape stands for; the cursor is after the backslash. -/
def readEscape (since : Mark) (c : Cursor) : Reading (Text × Cursor) :=
  let context := "while scanning a double-quoted scalar"
  match escapes.find? fun e => e.1 == c.head with
  | some (_, ch) => .ok ([.char ch], c.next)
  | none =>
    match escapeSize? c.head with
    | some size =>
      let c := c.next
      let digits := (c.rest.take size).takeWhile isHexDigit
      if digits.length < size then
        stop context since ("expected escape sequence of " ++ toString size
          ++ " hexadecimal numbers, but found " ++ shown (c.peek digits.length)) c.mark
      else
        match CodePoint.ofCode? (hexValue digits) with
        | some ch => .ok ([ch], c.skip size)
        | none => .error (.codePoint (hexValue digits))
    | none =>
      if isBreak c.head then
        let c := (c.takeBreak).2
        (quotedBreaks since (c.rest.length + 1) c).map fun (breaks, c) => (Text.ofChars breaks, c)
      else stop context since ("found unknown escape character " ++ shown c.head) c.mark

/-- Reads words and the spaces between them up to the closing quote, which is left. -/
def readQuotedFrom (double : Bool) (since : Mark) : Nat → Cursor → Reading (Text × Cursor)
  | 0, c => .ok ([], c)
  | n + 1, c =>
    let ordinary (ch : Char) : Bool :=
      !(isGap ch || ch == '\x27' || ch == '\x22' || ch == '\\')
    let continueWith (read : Text) (c : Cursor) : Reading (Text × Cursor) := do
      let (more, c) ← readQuotedFrom double since n c
      return (read ++ more, c)
    let (run, c') := c.take ordinary
    if !run.isEmpty then continueWith (.ofChars run) c'
    else if !double && c.head == '\x27' && c.peek 1 == '\x27' then
      continueWith [.char '\x27'] (c.skip 2)
    else if c.head == (if double then '\x22' else '\x27') then .ok ([], c)
    else if double && c.head == '\\' then do
      let (read, c) ← readEscape since c.next
      continueWith read c
    else if c.head == '\x27' || c.head == '\x22' || c.head == '\\' then
      continueWith [.char c.head] c.next
    else do
      let (cs, c) ← quotedSpaces since c
      continueWith (.ofChars cs) c

def readQuoted (c : Cursor) : Reading (Token × Cursor) := do
  let (text, c') ← readQuotedFrom (c.head == '\x22') c.mark (c.rest.length + 1) c.next
  let c' := c'.next
  return (⟨.scalar text false, c.mark, c'.mark⟩, c')

/-! ### Block scalars -/

/-- What happens to the line breaks at the end of a block scalar. -/
inductive Chomping where
  | strip
  | clip
  | keep
  deriving DecidableEq, Repr

def chompingOf? (c : Char) : Option Chomping :=
  if c == '+' then some .keep else if c == '-' then some .strip else none

/-- An indentation indicator: a digit, which is not zero. -/
def readIncrement (since : Mark) (c : Cursor) : Reading (Option Nat × Cursor) :=
  if c.head == '0' then
    stop "while scanning a block scalar" since
      "expected indentation indicator in the range 1-9, but found 0" c.mark
  else if c.head.isDigit then .ok (some (c.head.toNat - 48), c.next)
  else .ok (none, c)

/-- Reads the indicators of a block scalar, in either order. -/
def readIndicators (since : Mark) (c : Cursor) : Reading (Chomping × Option Nat × Cursor) := do
  let (chomping, increment, c) ← match chompingOf? c.head with
    | some chomping => do
      let (increment, c) ← readIncrement since c.next
      pure (chomping, increment, c)
    | none => do
      match ← readIncrement since c with
      | (none, c) => pure (.clip, none, c)
      | (some increment, c) => match chompingOf? c.head with
        | some chomping => pure (chomping, some increment, c.next)
        | none => pure (.clip, some increment, c)
  if endsWord c.head then return (chomping, increment, c)
  else
    stop "while scanning a block scalar" since
      ("expected chomping or indentation indicators, but found " ++ shown c.head) c.mark

/-- Reads the blank lines before the first line of a block scalar, and finds the largest
indentation among them and that line. Gives the breaks, the indentation and the last place. -/
def blockIndentation : Nat → Nat → Mark → Cursor → List Char × Nat × Mark × Cursor
  | 0, widest, last, c => ([], widest, last, c)
  | n + 1, widest, last, c =>
    if c.head == ' ' then blockIndentation n (max widest c.next.mark.column) last c.next
    else if isBreak c.head then
      let (b, c) := c.takeBreak
      let (more, rest) := blockIndentation n widest c.mark c
      (b ++ more, rest)
    else ([], widest, last, c)

/-- Skips the indentation of a line, up to a column. -/
def skipIndent (indent : Nat) : Nat → Cursor → Cursor
  | 0, c => c
  | n + 1, c => if c.mark.column < indent && c.head == ' ' then skipIndent indent n c.next else c

/-- Reads blank lines below a line of a block scalar. -/
def blockBreaks (indent : Nat) : Nat → Mark → Cursor → List Char × Mark × Cursor
  | 0, last, c => ([], last, c)
  | n + 1, last, c =>
    let c := skipIndent indent indent c
    if isBreak c.head then
      let (b, c) := c.takeBreak
      let (more, rest) := blockBreaks indent n c.mark c
      (b ++ more, rest)
    else ([], last, c)

/-- Reads the lines of a block scalar. `breaks` are the blank lines above the next line. Gives the
text with the blank lines but the last ones, the break of the last line, and the last blank lines. -/
def readBlockLines (folded : Bool) (indent : Nat) :
    Nat → List Char → Mark → Cursor → List Char × List Char × List Char × Mark × Cursor
  | 0, breaks, last, c => ([], [], breaks, last, c)
  | n + 1, breaks, last, c =>
    if c.mark.column = indent && !c.rest.isEmpty then
      let leading := c.head == ' ' || c.head == '\t'
      let (line, c) := c.takeLine
      let (b, c) := c.takeBreak
      let (more, last, c) := blockBreaks indent (c.rest.length + 1) c.mark c
      if c.mark.column = indent && !c.rest.isEmpty then
        let joint :=
          if folded && b == ['\n'] && !leading && c.head != ' ' && c.head != '\t' then
            (if more.isEmpty then [' '] else [])
          else b
        let (text, rest) := readBlockLines folded indent n more last c
        (breaks ++ line ++ joint ++ text, rest)
      else (breaks ++ line, b, more, last, c)
    else ([], [], breaks, last, c)

/-- Reads a block scalar, whose indicator is at the cursor; `parent` is the indentation of the
block around it, plus one. -/
def readBlock (parent : Nat) (c : Cursor) : Reading (Token × Cursor) := do
  let since := c.mark
  let (chomping, increment, c') ← readIndicators since c.next
  let c' ← skipComment "while scanning a block scalar" since c'
  let least := max parent 1
  let (indent, breaks, last, c') := match increment with
    | none =>
      let (breaks, widest, last, c') := blockIndentation (c'.rest.length + 1) 0 c'.mark c'
      (max least widest, breaks, last, c')
    | some k =>
      let indent := least + k - 1
      let (breaks, last, c') := blockBreaks indent (c'.rest.length + 1) c'.mark c'
      (indent, breaks, last, c')
  let (text, final, trailing, last, c') :=
    readBlockLines (c.head == '>') indent (c'.rest.length + 1) breaks last c'
  let text := match chomping with
    | .strip => text
    | .clip => text ++ final
    | .keep => text ++ final ++ trailing
  return (⟨.scalar (.ofChars text) false, since, last⟩, c')

end JobMatrix.Yaml
