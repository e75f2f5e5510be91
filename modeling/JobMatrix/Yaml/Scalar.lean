import JobMatrix.Yaml.Tag
import JobMatrix.Yaml.Fault
import JobMatrix.Text.Lower
import JobMatrix.Value

set_option autoImplicit false

/-!
The values of scalars, by tag and text.
-/

namespace JobMatrix.Yaml.Scalar

def truths : List (String × Bool) :=
  [("yes", true), ("no", false), ("true", true), ("false", false), ("on", true), ("off", false)]

def bool (text : Text) : Except ScalarFault Value :=
  let word := Text.lower text
  match truths.find? fun t => Text.ofString t.1 == word with
  | some (_, b) => .ok (.bool b)
  | none => .error (.truth word)

/-- Drops the low lines of a number, and splits off its sign. -/
def signed (text : Text) : Except ScalarFault (Bool × Text) :=
  match text.filter (· != .char '_') with
  | [] => .error .emptyNumber
  | .char '-' :: rest => .ok (true, rest)
  | .char '+' :: rest => .ok (false, rest)
  | rest => .ok (false, rest)

def integer (base : Nat) (text : Text) : Except ScalarFault Int :=
  match Integer.read base text.chars with
  | .ok n => .ok n
  | .error .malformed => .error (.integer base text)
  | .error (.tooLong digits) => .error (.longInteger digits)

/-- An integer: of base 2 after `0b`, of base 16 after `0x`, of base 8 after `0`, of base 60 with
colons, or decimal. -/
def int (text : Text) : Except ScalarFault Value := do
  let (negative, number) ← signed text
  let n ← match number with
    | [] => throw .emptyNumber
    | [.char '0'] => pure 0
    | .char '0' :: .char 'b' :: rest => integer 2 rest
    | .char '0' :: .char 'x' :: rest => integer 16 rest
    | .char '0' :: _ => integer 8 number
    | _ =>
      if number.contains (.char ':') then do
        let places ← (number.splitAt ':').mapM (integer 10)
        pure (places.foldl (fun n place => n * 60 + place) 0)
      else integer 10 number
  return .int (if negative then -n else n)

def decimal (text : Text) : Except ScalarFault Binary64 :=
  match Binary64.read? 0 text.chars with
  | some x => .ok x
  | none => .error (.decimal text)

/-- Adds up the places of base sixty, the last one first, in floating point. -/
def addPlaces : Nat → Binary64 → List Binary64 → Except ScalarFault Binary64
  | _, sum, [] => .ok sum
  | weight, sum, place :: rest =>
    match Binary64.ofInt weight with
    | .infinite _ => .error .placesOverflow
    | w => addPlaces (weight * 60) (sum.add (place.mul w)) rest

/-- A floating point number, possibly of base sixty, in any case. The word for not-a-number stands
for the same one everywhere; any other is told apart by the node it is read from. -/
def float (node : Nat) (text : Text) : Except ScalarFault Value := do
  let (negative, written) ← signed text
  let number := Text.lower written
  if number == Text.ofString ".nan" then return .float (.nan 0)
  let x ← if number == Text.ofString ".inf" then pure (.infinite false)
    else if number.contains (.char ':') then do
      let places ← (number.splitAt ':').mapM decimal
      addPlaces 1 (.zero false) places.reverse
    else decimal number
  return .float (match x with
    | .nan _ => .nan (node + 1)
    | x => if negative then x.negate else x)

/-- The number that digits stand for; no digits stand for zero. -/
def natOf (digits : List Char) : Nat := digits.foldl (fun n d => n * 10 + (d.toNat - 48)) 0

/-- The first six digits of a fraction, as a number of millionths. -/
def microseconds (fraction : List Char) : Nat :=
  let six := fraction.take 6
  natOf (six ++ List.replicate (6 - six.length) '0')

/-- The offset of a zone in seconds. -/
def offset : Option (Option (Char × List Char × List Char)) → Option Int
  | none => none
  | some none => some 0
  | some (some (sign, hours, minutes)) =>
    let seconds : Int := natOf hours * 3600 + natOf minutes * 60
    some (if sign == '-' then -seconds else seconds)

def timestamp (text : Text) : Except ScalarFault Value :=
  match TimestampText.ofChars? (Tag.dropFinalBreak text.chars) with
  | none => .error .timestamp
  | some t =>
    match t.time with
    | none =>
      match Date.make (natOf t.year) (natOf t.month) (natOf t.day) with
      | .ok d => .ok (.date d)
      | .error fault => .error (.calendar fault)
    | some (hour, minute, second, fraction) =>
      match Timestamp.make (natOf t.year) (natOf t.month) (natOf t.day) (natOf hour) (natOf minute)
          (natOf second) (microseconds fraction) (offset t.zone) with
      | .ok t => .ok (.timestamp t)
      | .error fault => .error (.calendar fault)

/-! ### Binary data -/

def base64Digit? (c : Char) : Option Nat :=
  if 'A' ≤ c && c ≤ 'Z' then some (c.toNat - 65)
  else if 'a' ≤ c && c ≤ 'z' then some (c.toNat - 71)
  else if c.isDigit then some (c.toNat + 4)
  else if c == '+' then some 62
  else if c == '/' then some 63
  else none

/-- Why base64 text cannot be decoded: so many digits make no whole number of bytes, or padding is
missing. -/
inductive Base64Fault where
  | excess (digits : Nat)
  | padding

def Base64Fault.message : Base64Fault → String
  | .excess digits => "Invalid base64-encoded string: number of data characters ("
      ++ toString digits ++ ") cannot be 1 more than a multiple of 4"
  | .padding => "Incorrect padding"

/-- Decodes base64, passing over everything else. `group` holds the digits of the current group,
`padding` the number of pads since its last digit, `bytes` what has been decoded, last first. -/
def decodeBase64 : List Char → List Nat → Nat → List UInt8 → Except Base64Fault (List UInt8)
  | [], [], _, bytes => .ok bytes.reverse
  | [], [_], _, bytes => .error (.excess (bytes.length / 3 * 4 + 1))
  | [], _, _, _ => .error .padding
  | c :: rest, group, padding, bytes =>
    if c == '=' then
      if 2 ≤ group.length && 4 ≤ group.length + padding + 1 then .ok bytes.reverse
      else decodeBase64 rest group (if 2 ≤ group.length then padding + 1 else padding) bytes
    else
      match base64Digit? c, group with
      | none, _ => decodeBase64 rest group padding bytes
      | some d, [] => decodeBase64 rest [d] 0 bytes
      | some d, [a] => decodeBase64 rest [a, d] 0 (UInt8.ofNat (a * 4 + d / 16) :: bytes)
      | some d, [a, b] =>
        decodeBase64 rest [a, b, d] 0 (UInt8.ofNat (b % 16 * 16 + d / 4) :: bytes)
      | some d, _ :: _ :: c :: _ =>
        decodeBase64 rest [] 0 (UInt8.ofNat (c % 4 * 64 + d) :: bytes)

/-- The first run of code points outside ASCII, and where it begins. -/
def foreignRun? (text : Text) : Option (Nat × Text) :=
  let before := text.takeWhile fun c => c.code < 128
  match (text.drop before.length).takeWhile fun c => 128 ≤ c.code with
  | [] => none
  | run => some (before.length, run)

def escaped (c : CodePoint) : String :=
  let n := c.code
  String.ofList (if n < 0x100 then '\\' :: 'x' :: Text.hexDigits 2 n
    else if n < 0x10000 then '\\' :: 'u' :: Text.hexDigits 4 n
    else '\\' :: 'U' :: Text.hexDigits 8 n)

def foreignMessage (start : Nat) (run : Text) : String :=
  "'ascii' codec can't encode " ++ (match run with
    | [c] => "character '" ++ escaped c ++ "' in position " ++ toString start
    | _ => "characters in position " ++ toString start ++ "-" ++ toString (start + run.length - 1))
  ++ ": ordinal not in range(128)"

def binary (text : Text) (m : Mark) : Except Fault Value :=
  match foreignRun? text with
  | some (start, run) => .error (.report ⟨none, none,
      "failed to convert base64 data into ascii: " ++ foreignMessage start run, m⟩)
  | none =>
    match decodeBase64 text.chars [] 0 [] with
    | .ok bytes => .ok (.bytes bytes)
    | .error e => .error (.report ⟨none, none, "failed to decode base64 data: " ++ e.message, m⟩)

/-- How the text of a scalar is read, by its tag; the node and the place are those of the scalar.
Only the tags of scalars have a reader. -/
def reader? (node : Nat) (m : Mark) : Tag → Option (Text → Except Fault Value)
  | .null => some fun _ => .ok .null
  | .bool => some fun text => (bool text).mapError .scalar
  | .int => some fun text => (int text).mapError .scalar
  | .float => some fun text => (float node text).mapError .scalar
  | .binary => some fun text => binary text m
  | .timestamp => some fun text => (timestamp text).mapError .scalar
  | .str => some fun text => .ok (.text text)
  | _ => none

end JobMatrix.Yaml.Scalar
