import JobMatrix.Text

set_option autoImplicit false

/-!
Tags of nodes, and the tag that the text of a plain scalar suggests.
-/

namespace JobMatrix.Yaml

inductive Tag where
  | null
  | bool
  | int
  | float
  | binary
  | timestamp
  | omap
  | pairs
  | set
  | str
  | seq
  | map
  /-- The tag of a key whose value is merged into the mapping. -/
  | merge
  /-- The tag of the key that gives a mapping a default value. -/
  | value
  | other (text : String)
  deriving DecidableEq, Repr

namespace Tag

/-- What the names of the standard tags begin with. -/
def standard : String := "tag:yaml.org,2002:"

/-- The standard tags and their names. -/
def names : List (String × Tag) :=
  [("null", .null), ("bool", .bool), ("int", .int), ("float", .float), ("binary", .binary),
   ("timestamp", .timestamp), ("omap", .omap), ("pairs", .pairs), ("set", .set), ("str", .str),
   ("seq", .seq), ("map", .map), ("merge", .merge), ("value", .value)]

def ofText (text : String) : Tag :=
  match names.find? fun n => standard ++ n.1 == text with
  | some (_, tag) => tag
  | none => .other text

def text : Tag → String
  | .other text => text
  | tag => standard ++ ((names.find? fun n => n.2 == tag).map Prod.fst).getD ""

/-! ### Forms of plain scalars -/

def isDigitOrLow (c : Char) : Bool := c.isDigit || c == '_'

/-- A digit and then digits and low lines. -/
def isDigits (cs : List Char) : Bool :=
  match cs with
  | c :: rest => c.isDigit && rest.all isDigitOrLow
  | [] => false

def dropSign (cs : List Char) : List Char :=
  match cs with
  | '-' :: rest => rest
  | '+' :: rest => rest
  | _ => cs

/-- Nothing, or an exponent with a sign. -/
def isExponent (cs : List Char) : Bool :=
  match cs with
  | [] => true
  | e :: sign :: rest =>
    (e == 'e' || e == 'E') && (sign == '-' || sign == '+') && !rest.isEmpty && rest.all Char.isDigit
  | _ => false

/-- A place of a number of base sixty: 0 to 59, with one digit or two. -/
def isPlace (cs : List Char) : Bool :=
  match cs with
  | [d] => d.isDigit
  | [t, d] => '0' ≤ t && t ≤ '5' && d.isDigit
  | _ => false

def colonParts (cs : List Char) : List (List Char) := cs.splitOn ':'

/-- A fraction with digits before its point, or after it when there is no sign. -/
def isFraction (cs : List Char) : Bool :=
  let whole (ds : List Char) : Bool :=
    let (before, after) := ds.span (· != '.')
    isDigits before && (match after with
      | '.' :: rest => isExponent (rest.dropWhile isDigitOrLow)
      | _ => false)
  whole (dropSign cs) || (match cs with
    | '.' :: rest => isDigits (rest.takeWhile isDigitOrLow) && isExponent (rest.dropWhile isDigitOrLow)
    | _ => false)

def isSexagesimalFraction (cs : List Char) : Bool :=
  match colonParts (dropSign cs) with
  | first :: rest =>
    match rest.reverse with
    | last :: middle =>
      let (place, after) := last.span (· != '.')
      isDigits first && middle.all isPlace && isPlace place && (match after with
        | '.' :: digits => digits.all isDigitOrLow
        | _ => false)
    | [] => false
  | [] => false

def isSpecialFloat (cs : List Char) : Bool :=
  [".inf", ".Inf", ".INF"].contains (String.ofList (dropSign cs))
    || [".nan", ".NaN", ".NAN"].contains (String.ofList cs)

def isFloat (cs : List Char) : Bool :=
  isFraction cs || isSexagesimalFraction cs || isSpecialFloat cs

/-- Digits of a base and low lines, at least one. -/
def isDigitsOf (digit : Char → Bool) (cs : List Char) : Bool :=
  !cs.isEmpty && cs.all fun c => digit c || c == '_'

def isHex (c : Char) : Bool := c.isDigit || ('a' ≤ c && c ≤ 'f') || ('A' ≤ c && c ≤ 'F')

/-- A decimal number that does not begin with zero. -/
def isDecimal (cs : List Char) : Bool := cs.headD '0' != '0' && isDigits cs

def isInt (cs : List Char) : Bool :=
  match dropSign cs with
  | ['0'] => true
  | '0' :: 'b' :: rest => isDigitsOf (fun c => c == '0' || c == '1') rest
  | '0' :: 'x' :: rest => isDigitsOf isHex rest
  | '0' :: rest => isDigitsOf (fun c => '0' ≤ c && c ≤ '7') rest
  | ds =>
    isDecimal ds || (match colonParts ds with
      | first :: rest => isDecimal first && !rest.isEmpty && rest.all isPlace
      | [] => false)

def isBool (cs : List Char) : Bool :=
  ["yes", "Yes", "YES", "no", "No", "NO", "true", "True", "TRUE", "false", "False", "FALSE",
   "on", "On", "ON", "off", "Off", "OFF"].contains (String.ofList cs)

def isNull (cs : List Char) : Bool := ["~", "null", "Null", "NULL", ""].contains (String.ofList cs)

end Tag

structure TimestampText where
  year : List Char
  month : List Char
  day : List Char
  time : Option (List Char × List Char × List Char × List Char)
  zone : Option (Option (Char × List Char × List Char))

namespace TimestampText

/-- Reads at least `least` and at most `most` digits. -/
def digits? (least most : Nat) (cs : List Char) : Option (List Char × List Char) :=
  let run := (cs.take most).takeWhile Char.isDigit
  if least ≤ run.length then some (run, cs.drop run.length) else none

def drop? (c : Char) (cs : List Char) : Option (List Char) :=
  match cs with
  | d :: rest => if c == d then some rest else none
  | [] => none

def isSpace (c : Char) : Bool := c == ' ' || c == '\t'

/-- Reads a zone to the end, if one is there. -/
def zone? (cs : List Char) : Option (Option (Option (Char × List Char × List Char))) := do
  match cs.dropWhile isSpace with
  | [] => if cs.isEmpty then some none else none
  | ['Z'] => some (some none)
  | sign :: rest =>
    if sign == '-' || sign == '+' then
      let (hours, rest) ← digits? 1 2 rest
      match rest with
      | [] => some (some (some (sign, hours, [])))
      | ':' :: rest =>
        let (minutes, rest) ← digits? 2 2 rest
        if rest.isEmpty then some (some (some (sign, hours, minutes))) else none
      | _ => none
    else none

/-- Reads the time of day and the zone. -/
def time? (cs : List Char) : Option ((List Char × List Char × List Char × List Char)
    × Option (Option (Char × List Char × List Char))) := do
  let cs ← match cs with
    | c :: rest =>
      if c == 'T' || c == 't' then some rest
      else if isSpace c then some (rest.dropWhile isSpace)
      else none
    | [] => none
  let (hour, cs) ← digits? 1 2 cs
  let (minute, cs) ← digits? 2 2 (← drop? ':' cs)
  let (second, cs) ← digits? 2 2 (← drop? ':' cs)
  let (fraction, cs) := match cs with
    | '.' :: rest => (rest.takeWhile Char.isDigit, rest.dropWhile Char.isDigit)
    | _ => ([], cs)
  let zone ← zone? cs
  return ((hour, minute, second, fraction), zone)

/-- Reads a date with months and days of one digit or two, and a time of day, if there is one. -/
def ofChars? (cs : List Char) : Option TimestampText := do
  let (year, cs) ← digits? 4 4 cs
  let (month, cs) ← digits? 1 2 (← drop? '-' cs)
  let (day, cs) ← digits? 1 2 (← drop? '-' cs)
  if cs.isEmpty then return ⟨year, month, day, none, none⟩
  else
    let (time, zone) ← time? cs
    return ⟨year, month, day, some time, zone⟩

/-- A date alone is plain only with two digits for the month and for the day. -/
def isPlain (t : TimestampText) : Bool :=
  t.time.isSome || (t.month.length == 2 && t.day.length == 2)

end TimestampText

namespace Tag

/-- The forms are tried in this order. An indicator alone has a tag that no reader knows. -/
def ofForm (cs : List Char) : Tag :=
  if isBool cs then .bool
  else if isFloat cs then .float
  else if isInt cs then .int
  else if cs == ['<', '<'] then .merge
  else if isNull cs then .null
  else if (TimestampText.ofChars? cs).any TimestampText.isPlain then .timestamp
  else if cs == ['='] then .value
  else if [['!'], ['&'], ['*']].contains cs then .other (standard ++ "yaml")
  else .str

/-- The text without one line feed at its end, unless that is all there is. -/
def dropFinalBreak (cs : List Char) : List Char :=
  match cs.reverse with
  | '\n' :: rest@(_ :: _) => rest.reverse
  | _ => cs

/-- The tag that the text of a plain scalar suggests; no form has a surrogate in it. -/
def suggested (text : Text) : Tag := ofForm (dropFinalBreak text.chars)

end Tag

end JobMatrix.Yaml
