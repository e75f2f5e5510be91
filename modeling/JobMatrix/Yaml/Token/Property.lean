import JobMatrix.Yaml.Token
import JobMatrix.Text.Utf8
import JobMatrix.Number.Decimal

set_option autoImplicit false

/-!
Reading names: anchors, aliases, tags and directives.
-/

namespace JobMatrix.Yaml

/-- The characters of a tag besides letters and digits. -/
def uriMarks : List Char :=
  ['-', ';', '/', '?', ':', '@', '&', '=', '+', '$', ',', '_', '.', '!', '~', '*', '\x27', '(', ')',
   '[', ']', '%']

def isUriChar (c : Char) : Bool := c.isAlphanum || uriMarks.contains c

def endsAnchor (c : Char) : Bool := isGap c || ['?', ':', ',', ']', '\x7d', '%', '@', '\x60'].contains c

/-- Reads an anchor or an alias, whose indicator is at the cursor. -/
def readAnchor (c : Cursor) : Reading (Token × Cursor) :=
  let isAlias := c.head == '*'
  let context := if isAlias then "while scanning an alias" else "while scanning an anchor"
  let (name, c') := c.next.take isNameChar
  if name.isEmpty || !endsAnchor c'.head then
    stop context c.mark
      ("expected alphabetic or numeric character, but found " ++ shown c'.head) c'.mark
  else
    let name := String.ofList name
    .ok (⟨if isAlias then .alias name else .anchor name, c.mark, c'.mark⟩, c')

/-- The value of two hexadecimal digits. -/
def hexPair (high low : Char) : UInt8 :=
  UInt8.ofNat ((Integer.digitOf? high).getD 0 * 16 + (Integer.digitOf? low).getD 0)

/-- Reads a run of escapes as bytes; the first count is a bound on their number. -/
def readEscapes (context : String) (since : Mark) : Nat → Cursor → Reading (List UInt8 × Cursor)
  | 0, c => .ok ([], c)
  | n + 1, c =>
    if c.head != '%' then .ok ([], c)
    else
      let c := c.next
      let expect (ch : Char) : Reading Unit :=
        if isHexDigit ch then .ok ()
        else stop context since ("expected URI escape sequence of 2 hexadecimal numbers, but found "
          ++ shown ch) c.mark
      do
        expect (c.peek 0)
        expect (c.peek 1)
        let (bytes, c') ← readEscapes context since n (c.skip 2)
        return (hexPair (c.peek 0) (c.peek 1) :: bytes, c')

/-- Reads the characters of a tag, the first count being a bound on the number of runs. -/
def readUriFrom (context : String) (since : Mark) : Nat → Cursor → Reading (List Char × Cursor)
  | 0, c => .ok ([], c)
  | n + 1, c =>
    if c.head == '%' then do
      let (bytes, c') ← readEscapes context since c.rest.length c
      match Text.decodeUtf8 bytes with
      | .error e => stop context since (e.message) c.mark
      | .ok cs =>
        let (more, c'') ← readUriFrom context since n c'
        return (cs ++ more, c'')
    else
      let (cs, c') := c.take fun ch => isUriChar ch && ch != '%'
      if cs.isEmpty then .ok ([], c)
      else do
        let (more, c'') ← readUriFrom context since n c'
        return (cs ++ more, c'')

/-- Reads the text of a tag, which is not empty. -/
def readUri (what : String) (since : Mark) (c : Cursor) : Reading (String × Cursor) := do
  if isUriChar c.head then
    let (cs, c') ← readUriFrom ("while scanning a " ++ what) since (c.rest.length + 1) c
    return (String.ofList cs, c')
  else stop ("while parsing a " ++ what) since ("expected URI, but found " ++ shown c.head) c.mark

/-- Reads a handle: one exclamation mark, or a name between two. -/
def readHandle (what : String) (since : Mark) (c : Cursor) : Reading (String × Cursor) :=
  let context := "while scanning a " ++ what
  if c.head != '!' then
    stop context since ("expected '!', but found " ++ shown c.head) c.mark
  else
    let c := c.next
    if c.head == ' ' then .ok ("!", c)
    else
      let (name, c') := c.take isNameChar
      if c'.head == '!' then .ok (String.ofList ('!' :: name ++ ['!']), c'.next)
      else stop context since ("expected '!', but found " ++ shown c'.head) c'.mark

/-- Whether the word at the cursor holds a second exclamation mark, and so begins with a handle. -/
def hasHandle (c : Cursor) : Bool :=
  (c.rest.drop 1).takeWhile (fun ch => !endsWord ch) |>.contains '!'

def readTag (c : Cursor) : Reading (Token × Cursor) := do
  let since := c.mark
  let (kind, c) ← if c.peek 1 == '<' then do
      let (suffix, c) ← readUri "tag" since (c.skip 2)
      if c.head != '>' then
        stop "while parsing a tag" since ("expected '>', but found " ++ shown c.head) c.mark
      else pure (TokenKind.tag none suffix, c.next)
    else if isGap (c.peek 1) then pure (TokenKind.tag none "!", c.next)
    else do
      let (handle, c) ← if hasHandle c then readHandle "tag" since c else pure ("!", c.next)
      let (suffix, c) ← readUri "tag" since c
      pure (TokenKind.tag (some handle) suffix, c)
  if endsWord c.head then return (⟨kind, since, c.mark⟩, c)
  else stop "while scanning a tag" since ("expected ' ', but found " ++ shown c.head) c.mark

def readVersionNumber (since : Mark) (c : Cursor) : Reading (Nat × Cursor) :=
  let (digits, c') := c.take Char.isDigit
  if digits.isEmpty then
    stop "while scanning a directive" since ("expected a digit, but found " ++ shown c.head) c.mark
  else if Integer.maxDigits < digits.length then .error (.scalar (.longInteger digits.length))
  else .ok (digits.foldl (fun n d => n * 10 + (d.toNat - 48)) 0, c')

def readVersion (since : Mark) (c : Cursor) : Reading (Directive × Cursor) := do
  let context := "while scanning a directive"
  let (major, c) ← readVersionNumber since c.skipSpaces
  if c.head != '.' then
    stop context since ("expected a digit or '.', but found " ++ shown c.head) c.mark
  else
    let (minor, c) ← readVersionNumber since c.next
    if endsWord c.head then return (.version major minor, c)
    else stop context since ("expected a digit or ' ', but found " ++ shown c.head) c.mark

def readTagDirective (since : Mark) (c : Cursor) : Reading (Directive × Cursor) := do
  let context := "while scanning a directive"
  let (handle, c) ← readHandle "directive" since c.skipSpaces
  if c.head != ' ' then
    stop context since ("expected ' ', but found " ++ shown c.head) c.mark
  else
    let (expansion, c) ← readUri "directive" since c.skipSpaces
    if endsWord c.head then return (.tag handle expansion, c)
    else stop context since ("expected ' ', but found " ++ shown c.head) c.mark

def readDirective (c : Cursor) : Reading (Token × Cursor) := do
  let context := "while scanning a directive"
  let since := c.mark
  let (name, c) := c.next.take isNameChar
  if name.isEmpty || !endsWord c.head then
    stop context since
      ("expected alphabetic or numeric character, but found " ++ shown c.head) c.mark
  else
    let name := String.ofList name
    let (d, c) ← if name == "YAML" then readVersion since c
      else if name == "TAG" then readTagDirective since c
      else pure (Directive.other name, c)
    let last := c.mark
    let c := match d with
      | .other _ => c.skipLine
      | _ => c
    let c ← skipComment context since c
    return (⟨.directive d, since, last⟩, c)

end JobMatrix.Yaml
