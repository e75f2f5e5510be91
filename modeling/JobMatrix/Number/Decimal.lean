import JobMatrix.Number.Binary64
import JobMatrix.Text.Digit
import JobMatrix.Text.Blank

set_option autoImplicit false

/-!
Decimal text of numbers: the shortest digits that read back as a given double and how they are
laid out, the reading of decimal text, and the limit on the length of integers.
-/

namespace JobMatrix

namespace Binary64

/-- A positive number: `digits` read as an integer, times `10 ^ exponent`. -/
structure Decimal where
  digits : Nat
  exponent : Int
  deriving DecidableEq, Repr

def decimalLength (n : Nat) : Nat := (Nat.toDigits 10 n).length

/-- The `p` with `10 ^ (p - 1) ≤ num / den < 10 ^ p`. -/
def decimalPlaces (num den : Nat) : Int :=
  if den ≤ num then decimalLength (num / den)
  else
    let size := decimalLength (den / num)
    if num * Nat.pow 10 (size - 1) = den then 2 - (size : Int) else 1 - (size : Int)

/-- The interval of numbers that round to `m · 2 ^ e`, in quarters of `2 ^ e`, with a flag that
tells whether its ends belong to it. -/
def roundingInterval (m : Nat) (e : Int) : Nat × Nat × Bool :=
  let below := if m = Nat.pow 2 52 && leastExponent < e then 1 else 2
  (4 * m - below, 4 * m + 2, m % 2 == 0)

/-- The multiple of `10 ^ k` nearest to `m · 2 ^ e` among those that round to it; of two that are
equally near, the even one. -/
def nearestOnGrid? (m : Nat) (e : Int) (k : Int) : Option Decimal :=
  let (low, high, closed) := roundingInterval m e
  -- Everything is compared in units of `2 ^ e / 4 / scale`, where a grid step is `step` units.
  let quarter := e - 2
  let scale := (if 0 ≤ k then 1 else Nat.pow 10 (-k).toNat)
    * (if 0 ≤ quarter then Nat.pow 2 quarter.toNat else 1)
  let step := (if 0 ≤ k then Nat.pow 10 k.toNat else 1)
    * (if 0 ≤ quarter then 1 else Nat.pow 2 (-quarter).toNat)
  let value := 4 * m * scale
  let inside (x : Nat) : Bool :=
    if closed then low * scale ≤ x && x ≤ high * scale else low * scale < x && x < high * scale
  let q := value / step
  let below := inside (q * step)
  let above := inside ((q + 1) * step)
  if below && above then
    let before := value - q * step
    let after := (q + 1) * step - value
    if before < after || (before == after && q % 2 == 0) then some ⟨q, k⟩ else some ⟨q + 1, k⟩
  else if below then some ⟨q, k⟩
  else if above then some ⟨q + 1, k⟩
  else none

/-- Tries the grids of `count`, `count + 1`, … digits, `tries` of them. -/
def shortestFrom (m : Nat) (e : Int) (places : Int) : Nat → Nat → Decimal
  | 0, _ => ⟨m, e⟩
  | tries + 1, count =>
    match nearestOnGrid? m e (places - count) with
    | some d => d
    | none => shortestFrom m e places tries (count + 1)

/-- The fewest digits that read back as `m · 2 ^ e`, for positive `m`; of those, the nearest. -/
def shortest (m : Nat) (e : Int) : Decimal :=
  let (n, d) := scaled m 1 (-e)
  shortestFrom m e (decimalPlaces n d) 17 1

/-- The digits without zeros at their end, and the position of the point counted from the first
digit. -/
def Decimal.parts (d : Decimal) : List Char × Int :=
  let cs := Nat.toDigits 10 d.digits
  ((cs.reverse.dropWhile (· == '0')).reverse, cs.length + d.exponent)

/-- The exponents that are written out by position are those from `-4` to `15`. -/
def isPositional (exponent : Int) : Bool := -4 ≤ exponent && exponent < 16

/-- A positive number: by position with at least one digit after the point, or in scientific form
with a signed exponent of at least two digits. -/
def Decimal.layout (d : Decimal) : List Char :=
  let (digits, point) := d.parts
  let exponent := point - 1
  if isPositional exponent then
    if point ≤ 0 then '0' :: '.' :: List.replicate (-point).toNat '0' ++ digits
    else if digits.length ≤ point.toNat then
      digits ++ List.replicate (point.toNat - digits.length) '0' ++ ['.', '0']
    else digits.take point.toNat ++ '.' :: digits.drop point.toNat
  else
    let mantissa := match digits with
      | [] => ['0']
      | [d] => [d]
      | d :: rest => d :: '.' :: rest
    let size := Nat.toDigits 10 exponent.natAbs
    mantissa ++ 'e' :: (if exponent < 0 then '-' else '+')
      :: (if size.length < 2 then '0' :: size else size)

/-- The shortest text that reads back as the number. -/
def text : Binary64 → String
  | .nan _ => "nan"
  | .infinite s => if s then "-inf" else "inf"
  | .finite s m e =>
    let body := if m = 0 then ['0', '.', '0'] else (shortest m e).layout
    String.ofList (if s then '-' :: body else body)

/-- Reads decimal digits, with single low lines allowed between two digits. Gives the number, how
many digits it had and the rest. -/
def readDigits : List Char → Nat → Nat → Nat × Nat × List Char
  | [], value, count => (value, count, [])
  | '_' :: c :: rest, value, count =>
    match Text.digitValue? c with
    | some d => if count = 0 then (value, count, '_' :: c :: rest)
      else readDigits rest (value * 10 + d) (count + 1)
    | none => (value, count, '_' :: c :: rest)
  | c :: rest, value, count =>
    match Text.digitValue? c with
    | some d => readDigits rest (value * 10 + d) (count + 1)
    | none => (value, count, c :: rest)

def readSign : List Char → Bool × List Char
  | '-' :: rest => (true, rest)
  | '+' :: rest => (false, rest)
  | rest => (false, rest)

/-- An exponent with its letter, to the end of the text. -/
def readExponent? : List Char → Option Int
  | [] => some 0
  | c :: rest =>
    if c == 'e' || c == 'E' then
      let (negative, rest) := readSign rest
      match readDigits rest 0 0 with
      | (_, 0, _) => none
      | (n, _, []) => some (if negative then -(n : Int) else n)
      | _ => none
    else none

/-- Reads an unsigned number with an optional fraction and an optional exponent. -/
def readUnsigned? (negative : Bool) (cs : List Char) : Option Binary64 :=
  let (whole, wholeCount, rest) := readDigits cs 0 0
  match rest with
  | '.' :: rest =>
    let (value, count, rest) := readDigits rest whole 0
    if wholeCount = 0 && count = 0 then none
    else (readExponent? rest).map fun e => ofDecimal negative value (e - count)
  | rest =>
    if wholeCount = 0 then none else (readExponent? rest).map fun e => ofDecimal negative whole e

/-- The blanks that may stand around a number: the information separators are none of them. -/
def isNumberBlank (c : Char) : Bool := Text.isBlank c && !(28 ≤ c.toNat && c.toNat ≤ 31)

def trimNumber (cs : List Char) : List Char :=
  ((cs.dropWhile isNumberBlank).reverse.dropWhile isNumberBlank).reverse

/-- Reads a number: decimal text, or a word for infinity or not-a-number, between blanks. A
not-a-number that is read gets the given mark. -/
def read? (mark : Nat) (cs : List Char) : Option Binary64 :=
  let (negative, cs) := readSign (trimNumber cs)
  let word := String.ofList (cs.map Char.toLower)
  if word == "inf" || word == "infinity" then some (.infinite negative)
  else if word == "nan" then some (.nan mark)
  else readUnsigned? negative cs

end Binary64

namespace Integer

/-- Integers of more decimal digits than this are neither read nor printed. -/
def maxDigits : Nat := 4300

/-- The decimal text of an integer within the limit. -/
def text? (n : Int) : Option String :=
  if n.natAbs < Nat.pow 10 maxDigits then some (toString n) else none

/-- Why a text is no integer. -/
inductive Fault where
  | malformed
  | tooLong (digits : Nat)
  deriving DecidableEq, Repr

/-- The value of a digit in bases up to sixteen. -/
def digitOf? (c : Char) : Option Nat :=
  match Text.digitValue? c with
  | some d => some d
  | none =>
    if 'a'.toNat ≤ c.toNat && c.toNat ≤ 'f'.toNat then some (c.toNat - 87)
    else if 'A'.toNat ≤ c.toNat && c.toNat ≤ 'F'.toNat then some (c.toNat - 55)
    else none

/-- Reads digits of a base to the end of the text. -/
def readAll? (base : Nat) : List Char → Nat → Option Nat
  | [], value => some value
  | c :: rest, value =>
    match digitOf? c with
    | some d => if d < base then readAll? base rest (value * base + d) else none
    | none => none

/-- Drops the mark of a base, such as the `0x` of base sixteen: a zero, of any script, and a letter. -/
def dropBaseMark (base : Nat) : List Char → List Char
  | zero :: c :: rest =>
    let marks : List Char :=
      if base = 2 then ['b', 'B'] else if base = 8 then ['o', 'O']
      else if base = 16 then ['x', 'X'] else []
    if Text.digitValue? zero == some 0 && marks.contains c then rest else zero :: c :: rest
  | cs => cs

/-- Reads an integer between blanks: a sign, the mark of the base, and digits. Only decimal text
is subject to the limit on digits. -/
def read (base : Nat) (cs : List Char) : Except Fault Int :=
  let (negative, cs) := Binary64.readSign (Binary64.trimNumber cs)
  let digits := dropBaseMark base cs
  match digits with
  | [] => .error .malformed
  | _ :: _ =>
    let run := (digits.takeWhile fun c => (digitOf? c).any (· < base)).length
    if base = 10 && maxDigits < run then .error (.tooLong run)
    else match readAll? base digits 0 with
      | some n => .ok (if negative then -(n : Int) else n)
      | none => .error .malformed

end Integer

end JobMatrix
