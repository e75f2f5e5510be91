set_option autoImplicit false

/-!
Binary floating point numbers of double precision, kept as a sign, a significand and a power of
two, so that every operation is exact integer arithmetic followed by one rounding: to the nearest
number, and to the even significand when two are equally near. A not-a-number carries a mark, which
tells the ones that were written down apart: as numbers none is equal to any, but as keys those with
one mark are the same.
-/

namespace JobMatrix

/-- A double. A finite one is `± significand · 2 ^ exponent`; the numbers that rounding makes have
a significand below `2 ^ 53`, and from `2 ^ 52` on unless the exponent is the least one. -/
inductive Binary64 where
  | nan (mark : Nat)
  | infinite (negative : Bool)
  | finite (negative : Bool) (significand : Nat) (exponent : Int)
  deriving DecidableEq, Repr

namespace Binary64

/-- The exponent of the least positive number. -/
def leastExponent : Int := -1074

/-- The exponent from which on a rounded number overflows. -/
def overflowExponent : Int := 972

def zero (negative : Bool) : Binary64 := .finite negative 0 leastExponent

/-- The quotient rounded to the nearest integer, a tie to the even one. -/
def divNearest (num den : Nat) : Nat :=
  let q := num / den
  let r := num % den
  if 2 * r < den then q else if den < 2 * r then q + 1 else q + q % 2

/-- `num / den / 2 ^ e` as a quotient of natural numbers. -/
def scaled (num den : Nat) (e : Int) : Nat × Nat :=
  if 0 ≤ e then (num, den * Nat.pow 2 e.toNat) else (num * Nat.pow 2 (-e).toNat, den)

/-- The double nearest to `± num / den`. -/
def ofRatio (negative : Bool) (num den : Nat) : Binary64 :=
  if num = 0 || den = 0 then zero negative
  else
    let guess : Int := (num.log2 : Int) - (den.log2 : Int) - 53
    let (n, d) := scaled num den guess
    let exact := if Nat.pow 2 53 ≤ n / d then guess + 1 else guess
    let e := max exact leastExponent
    let (n, d) := scaled num den e
    let m := divNearest n d
    let (m, e) := if m = Nat.pow 2 53 then (Nat.pow 2 52, e + 1) else (m, e)
    if overflowExponent ≤ e then .infinite negative else .finite negative m e

def ofInt (n : Int) : Binary64 := ofRatio (n < 0) n.natAbs 1

/-- The double nearest to `± digits · 10 ^ exponent`. Exponents far outside the range of doubles
are cut off first, so that no power grows without need. -/
def ofDecimal (negative : Bool) (digits : Nat) (exponent : Int) : Binary64 :=
  if digits = 0 then zero negative
  else
    let size : Int := (toString digits).length + exponent
    if 400 < size then .infinite negative
    else if size < -400 then zero negative
    else if 0 ≤ exponent then ofRatio negative (digits * Nat.pow 10 exponent.toNat) 1
    else ofRatio negative digits (Nat.pow 10 (-exponent).toNat)

def negate : Binary64 → Binary64
  | .nan mark => .nan mark
  | .infinite s => .infinite !s
  | .finite s m e => .finite (!s) m e

def isNegative : Binary64 → Bool
  | .nan _ => false
  | .infinite s => s
  | .finite s _ _ => s

/-- A finite number as an integer times a power of two. -/
def signedSignificand (negative : Bool) (m : Nat) : Int := if negative then -(m : Int) else m

/-- The double nearest to `n · 2 ^ e`; `negativeZero` gives the sign of a zero. -/
def ofScaled (negativeZero : Bool) (n : Int) (e : Int) : Binary64 :=
  if n = 0 then zero negativeZero
  else if 0 ≤ e then ofRatio (n < 0) (n.natAbs * Nat.pow 2 e.toNat) 1
  else ofRatio (n < 0) n.natAbs (Nat.pow 2 (-e).toNat)

def mul : Binary64 → Binary64 → Binary64
  | .finite s m e, .finite t n f =>
    ofScaled (s != t) (signedSignificand (s != t) (m * n)) (e + f)
  | .nan mark, _ => .nan mark
  | _, .nan mark => .nan mark
  | .infinite s, .finite t n _ => if n = 0 then .nan 0 else .infinite (s != t)
  | .finite s m _, .infinite t => if m = 0 then .nan 0 else .infinite (s != t)
  | .infinite s, .infinite t => .infinite (s != t)

def add : Binary64 → Binary64 → Binary64
  | .finite s m e, .finite t n f =>
    let least := min e f
    let sum := signedSignificand s (m * Nat.pow 2 (e - least).toNat)
      + signedSignificand t (n * Nat.pow 2 (f - least).toNat)
    ofScaled (s && t) sum least
  | .nan mark, _ => .nan mark
  | _, .nan mark => .nan mark
  | .infinite s, .finite _ _ _ => .infinite s
  | .finite _ _ _, .infinite t => .infinite t
  | .infinite s, .infinite t => if s = t then .infinite s else .nan 0

/-- The integer a finite double equals, if there is one. -/
def toInt? : Binary64 → Option Int
  | .finite s m e =>
    if 0 ≤ e then some (signedSignificand s (m * Nat.pow 2 e.toNat))
    else if m % Nat.pow 2 (-e).toNat = 0 then
      some (signedSignificand s (m / Nat.pow 2 (-e).toNat))
    else none
  | _ => none

/-- Equality of numbers: not-a-number differs from everything, and the two zeros are equal. -/
def equal : Binary64 → Binary64 → Bool
  | .nan _, _ => false
  | _, .nan _ => false
  | .infinite s, .infinite t => s == t
  | .finite s m e, .finite t n f =>
    let least := min e f
    signedSignificand s (m * Nat.pow 2 (e - least).toNat)
      == signedSignificand t (n * Nat.pow 2 (f - least).toNat)
  | _, _ => false

/-- Whether two numbers are one value: equal, or the same not-a-number. -/
def same : Binary64 → Binary64 → Bool
  | .nan a, .nan b => a == b
  | x, y => x.equal y

end Binary64

end JobMatrix
