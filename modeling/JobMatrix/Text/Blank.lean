import JobMatrix.Text
import JobMatrix.Text.Ranges

set_option autoImplicit false

/-!
Blank characters, line boundaries, and the two operations on text that depend on them: trimming
and splitting into lines.
-/

namespace JobMatrix.Text

/-- White space of every script, and the four information separators U+001C to U+001F. -/
def blankRanges : CodeRanges :=
  [(9, 13), (28, 32), (133, 133), (160, 160), (5760, 5760), (8192, 8202), (8232, 8233),
    (8239, 8239), (8287, 8287), (12288, 12288)]

def isBlank (c : CodePoint) : Bool := blankRanges.has c.code

def trim (t : Text) : Text := ((t.dropWhile isBlank).reverse.dropWhile isBlank).reverse

/-- A text of blanks only; the empty text too. -/
def isBlankText (t : Text) : Bool := t.all isBlank

/-- The characters that end a line; a carriage return takes a line feed after it along. -/
def isLineEnd (c : CodePoint) : Bool :=
  CodeRanges.has [(10, 13), (28, 30), (133, 133), (8232, 8233)] c.code

/-- `linesFrom line t` splits `t` at its line ends, where `line` holds what the current line has so
far, reversed. A line end at the very end of the text starts no further line. -/
def linesFrom : Text → Text → List Text
  | [], [] => []
  | line@(_ :: _), [] => [line.reverse]
  | line, .char '\r' :: .char '\n' :: rest => line.reverse :: linesFrom [] rest
  | line, c :: rest =>
    if isLineEnd c then line.reverse :: linesFrom [] rest else linesFrom (c :: line) rest

def lines (t : Text) : List Text := linesFrom [] t

end JobMatrix.Text
