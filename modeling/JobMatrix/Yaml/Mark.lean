import JobMatrix.Text.Quoted

set_option autoImplicit false

/-!
Places in a YAML text, and the excerpt that a message shows for one.
-/

namespace JobMatrix.Yaml

/-- A place: characters before it, and its line and column, all from zero. -/
structure Mark where
  index : Nat
  line : Nat
  column : Nat
  deriving DecidableEq, Repr, Inhabited

/-- The characters at which an excerpt stops. The end of the text counts as NUL. -/
def endsExcerpt (c : Char) : Bool :=
  c == '\x00' || c == '\r' || c == '\n' || c == '\u0085' || c == '\u2028' || c == '\u2029'

/-- The most characters of an excerpt on one side of the mark. -/
def excerptReach : Nat := 36

/-- Takes what an excerpt shows of `cs`, the characters on one side of the mark, nearest first.
When there are more than fit, five make room for an ellipsis. -/
def excerptSide (cs : List Char) : List Char × Bool :=
  let side := cs.takeWhile fun c => !endsExcerpt c
  if excerptReach < side.length then (side.take (excerptReach + 1 - 5), true) else (side, false)

/-- The line around the mark, indented, and a caret below the place itself. -/
def Mark.excerpt (text : List Char) (m : Mark) : List Char :=
  let (before, cutBefore) := excerptSide (text.take m.index).reverse
  let (after, cutAfter) := excerptSide (text.drop m.index)
  let head : List Char := if cutBefore then " ... ".toList else []
  let tail : List Char := if cutAfter then " ... ".toList else []
  List.replicate 4 ' ' ++ head ++ before.reverse ++ after ++ tail ++
    '\n' :: List.replicate (4 + before.length + head.length) ' ' ++ ['^']

/-- A place as messages give it, counted from one, with its excerpt. -/
def Mark.describe (text : List Char) (m : Mark) : String :=
  "  in \"<unicode string>\", line " ++ toString (m.line + 1) ++ ", column "
    ++ toString (m.column + 1) ++ ":\n" ++ String.ofList (m.excerpt text)

end JobMatrix.Yaml
