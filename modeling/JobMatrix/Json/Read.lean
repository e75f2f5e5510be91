import JobMatrix.Json
import JobMatrix.Number.Decimal

set_option autoImplicit false

/-!
Reading JSON text. Members keep their order and numbers their literals. Escapes of a high and a low
surrogate in succession stand for one character; any other surrogate stands for itself.
-/

namespace JobMatrix.Json

def isGap (c : Char) : Bool := c == ' ' || c == '\t' || c == '\n' || c == '\r'

def skipGaps (cs : List Char) : List Char := cs.dropWhile isGap

/-- The escapes of one letter, besides those of characters that stand for themselves. -/
def escapedLetter (c : Char) : Char :=
  match c with
  | 'n' => '\n'
  | 'r' => '\r'
  | 't' => '\t'
  | 'b' => '\x08'
  | 'f' => '\x0c'
  | c => c

/-- The number that hexadecimal digits stand for. -/
def hexNumber (digits : List Char) : Nat :=
  digits.foldl (fun n d => n * 16 + (Integer.digitOf? d).getD 0) 0

/-- Joins high and low surrogates that follow each other. -/
def joinPairs : Text → Text
  | .surrogate high :: .surrogate low :: rest =>
    if high.val < 0x400 && 0x400 ≤ low.val then
      .char (Char.ofNat (0x10000 + high.val * 0x400 + (low.val - 0x400))) :: joinPairs rest
    else .surrogate high :: joinPairs (.surrogate low :: rest)
  | c :: rest => c :: joinPairs rest
  | [] => []

/-- Reads a string up to its closing quote, after the opening one. -/
def stringFrom : List Char → Option (Text × List Char)
  | [] => none
  | '\x22' :: rest => some ([], rest)
  | '\\' :: 'u' :: a :: b :: c :: d :: rest => do
    let code ← CodePoint.ofCode? (hexNumber [a, b, c, d])
    let (more, rest) ← stringFrom rest
    return (code :: more, rest)
  | '\\' :: c :: rest => do
    let (more, rest) ← stringFrom rest
    return (.char (escapedLetter c) :: more, rest)
  | c :: rest => do
    let (more, rest) ← stringFrom rest
    return (.char c :: more, rest)

def string? (cs : List Char) : Option (Text × List Char) := do
  let (t, rest) ← stringFrom cs
  return (joinPairs t, rest)

/-- The characters of numbers, and of the words that stand for what is no finite number. -/
def isLiteral (c : Char) : Bool := c.isAlphanum || c == '-' || c == '+' || c == '.'

/-- A word or a number. -/
def literal (word : String) : Option Json :=
  if word.isEmpty then none
  else if word == "null" then some .null
  else if word == "true" then some (.bool true)
  else if word == "false" then some (.bool false)
  else some (.number word)

mutual

/-- Reads a value; the count bounds the depth and the number of items. -/
def value? : Nat → List Char → Option (Json × List Char)
  | 0, _ => none
  | n + 1, cs =>
    match skipGaps cs with
    | '\x22' :: rest => (string? rest).map fun (t, rest) => (.string t, rest)
    | '[' :: rest => (items? n true rest).map fun (vs, rest) => (.array vs, rest)
    | '\x7b' :: rest => (members? n true rest).map fun (ms, rest) => (.object ms, rest)
    | rest =>
      let word := rest.takeWhile isLiteral
      (literal (String.ofList word)).map fun v => (v, rest.drop word.length)

/-- Reads items up to the closing bracket; the first one has no comma in front. -/
def items? : Nat → Bool → List Char → Option (List Json × List Char)
  | 0, _, _ => none
  | n + 1, first, cs =>
    match skipGaps cs, first with
    | ']' :: rest, _ => some ([], rest)
    | ',' :: rest, false => items? n true rest
    | rest, true => do
      let (v, rest) ← value? n rest
      let (vs, rest) ← items? n false rest
      return (v :: vs, rest)
    | _, false => none

/-- Reads members up to the closing brace; the first one has no comma in front. -/
def members? : Nat → Bool → List Char → Option (List (Text × Json) × List Char)
  | 0, _, _ => none
  | n + 1, first, cs =>
    match skipGaps cs, first with
    | '\x7d' :: rest, _ => some ([], rest)
    | ',' :: rest, false => members? n true rest
    | '\x22' :: rest, true => do
      let (name, rest) ← string? rest
      match skipGaps rest with
      | ':' :: rest =>
        let (v, rest) ← value? n rest
        let (ms, rest) ← members? n false rest
        return ((name, v) :: ms, rest)
      | _ => none
    | _, _ => none

end

/-- Reads a text that holds one value and nothing else. Each value takes at most three steps for
each of its characters. -/
def read? (cs : List Char) : Option Json := do
  let (v, rest) ← value? (3 * cs.length + 3) cs
  if (skipGaps rest).isEmpty then some v else none

end JobMatrix.Json
