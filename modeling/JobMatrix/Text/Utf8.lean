import JobMatrix.Text.Quoted

set_option autoImplicit false

/-!
UTF-8. Bytes that are not UTF-8 are refused with the bytes at fault: the longest start of a
character that the next byte does not continue. A text has a UTF-8 form when it holds no
surrogates.
-/

namespace JobMatrix.Text

/-- Why bytes are no UTF-8. -/
inductive Utf8Fault where
  | invalidStart
  | invalidContinuation
  | unexpectedEnd
  deriving DecidableEq, Repr

/-- A fault with the offset of the first byte at fault and the bytes that were read as one. -/
structure Utf8Error where
  offset : Nat
  bytes : List UInt8
  fault : Utf8Fault
  deriving DecidableEq, Repr

/-- What may follow a first byte: how many bytes, and the bounds of the first of them. -/
def continuation (b : UInt8) : Option (Nat × UInt8 × UInt8) :=
  if b < 0x80 then some (0, 0, 0)
  else if b < 0xC2 then none
  else if b < 0xE0 then some (1, 0x80, 0xBF)
  else if b == 0xE0 then some (2, 0xA0, 0xBF)
  else if b == 0xED then some (2, 0x80, 0x9F)
  else if b < 0xF0 then some (2, 0x80, 0xBF)
  else if b == 0xF0 then some (3, 0x90, 0xBF)
  else if b < 0xF4 then some (3, 0x80, 0xBF)
  else if b == 0xF4 then some (3, 0x80, 0x8F)
  else none

def leadBits (b : UInt8) : Nat :=
  if b < 0x80 then b.toNat
  else if b < 0xE0 then b.toNat % 32
  else if b < 0xF0 then b.toNat % 16
  else b.toNat % 8

/-- The character being read: how many bytes are owed, the bounds of the next one, the payload so
far and the bytes read, last first. -/
structure Utf8State where
  owed : Nat
  low : UInt8
  high : UInt8
  code : Nat
  read : List UInt8

/-- `decodeFrom offset state bytes`, where `offset` counts the bytes before `bytes`. -/
def decodeFrom : Nat → Option Utf8State → List UInt8 → Except Utf8Error (List Char)
  | _, none, [] => .ok []
  | offset, some st, [] => .error ⟨offset - st.read.length, st.read.reverse, .unexpectedEnd⟩
  | offset, none, b :: rest =>
    match continuation b with
    | none => .error ⟨offset, [b], .invalidStart⟩
    | some (0, _, _) => (decodeFrom (offset + 1) none rest).map (Char.ofNat b.toNat :: ·)
    | some (owed, low, high) => decodeFrom (offset + 1) (some ⟨owed, low, high, leadBits b, [b]⟩) rest
  | offset, some st, b :: rest =>
    if st.low ≤ b && b ≤ st.high then
      let code := st.code * 64 + b.toNat % 64
      if st.owed = 1 then (decodeFrom (offset + 1) none rest).map (Char.ofNat code :: ·)
      else decodeFrom (offset + 1) (some ⟨st.owed - 1, 0x80, 0xBF, code, b :: st.read⟩) rest
    else .error ⟨offset - st.read.length, st.read.reverse, .invalidContinuation⟩

def decodeUtf8 (bytes : List UInt8) : Except Utf8Error (List Char) := decodeFrom 0 none bytes

/-- One byte by its value and offset, several by the interval of their offsets. -/
def Utf8Error.message (e : Utf8Error) : String :=
  let what := match e.bytes with
    | [b] => "byte 0x" ++ String.ofList (hexDigits 2 b.toNat) ++ " in position "
        ++ toString e.offset
    | bs => "bytes in position " ++ toString e.offset ++ "-"
        ++ toString (e.offset + bs.length - 1)
  let why := match e.fault with
    | .invalidStart => "invalid start byte"
    | .invalidContinuation => "invalid continuation byte"
    | .unexpectedEnd => "unexpected end of data"
  "'utf-8' codec can't decode " ++ what ++ ": " ++ why

/-- Why a text is not UTF-8: the first run of surrogates, by its offset and its size. -/
structure EncodeError where
  offset : Nat
  size : Nat
  first : Nat
  deriving DecidableEq, Repr

/-- One surrogate by its value and offset, several by the interval of their offsets. -/
def EncodeError.message (e : EncodeError) : String :=
  "'utf-8' codec can't encode " ++ (if e.size = 1 then
      "character '\\u" ++ String.ofList (hexDigits 4 e.first) ++ "' in position " ++ toString e.offset
    else "characters in position " ++ toString e.offset ++ "-" ++ toString (e.offset + e.size - 1))
  ++ ": surrogates not allowed"

/-- `charactersFrom offset t`, where `offset` counts the code points before `t`. -/
def charactersFrom : Nat → Text → Except EncodeError (List Char)
  | _, [] => .ok []
  | offset, .char c :: rest => (charactersFrom (offset + 1) rest).map (c :: ·)
  | offset, c@(.surrogate _) :: rest =>
    .error ⟨offset, 1 + (rest.takeWhile CodePoint.isSurrogate).length, c.code⟩

def characters (t : Text) : Except EncodeError (List Char) := charactersFrom 0 t

def encodeUtf8 (t : Text) : Except EncodeError (List UInt8) := do
  return (← t.characters).flatMap String.utf8EncodeChar

end JobMatrix.Text
