import JobMatrix.Text.Utf8

set_option autoImplicit false

/-!
Texts that stand for bytes of any kind, such as the names of files. A byte that belongs to no
character is read as a surrogate of its own, and that surrogate is written as the byte. Bytes are
read back as they were written; a text that was put together from such surrogates may come back
with the characters that their bytes make.
-/

namespace JobMatrix.Text

/-- The byte that a surrogate stands for. -/
def strayByte? (c : CodePoint) : Option UInt8 :=
  match c with
  | .surrogate n => if 0x480 ≤ n.val && n.val < 0x500 then some (UInt8.ofNat (n.val - 0x400)) else none
  | .char _ => none

/-- The surrogate that stands for a byte. -/
def ofStrayByte (b : UInt8) : CodePoint :=
  .surrogate ⟨0x400 + b.toNat, by have := b.toNat_lt; omega⟩

/-- `bytesFrom offset t`, where `offset` counts the code points before `t`. -/
def bytesFrom : Nat → Text → Except EncodeError (List UInt8)
  | _, [] => .ok []
  | offset, .char c :: rest => (bytesFrom (offset + 1) rest).map (String.utf8EncodeChar c ++ ·)
  | offset, c@(.surrogate _) :: rest =>
    match strayByte? c with
    | some b => (bytesFrom (offset + 1) rest).map (b :: ·)
    | none => .error ⟨offset, 1 + (rest.takeWhile CodePoint.isSurrogate).length, c.code⟩

/-- The bytes that a text stands for. -/
def toBytes (t : Text) : Except EncodeError (List UInt8) := bytesFrom 0 t

/-- `ofBytesWith instead n bytes` reads bytes with fewer than `n` faults; `instead` is what the bytes
of a fault are read as. -/
def ofBytesWith (instead : List UInt8 → Text) : Nat → List UInt8 → Text
  | 0, _ => []
  | faults + 1, bytes =>
    match decodeUtf8 bytes with
    | .ok cs => ofChars cs
    | .error e =>
      let before := ((decodeUtf8 (bytes.take e.offset)).toOption.map ofChars).getD []
      before ++ instead e.bytes ++ ofBytesWith instead faults (bytes.drop (e.offset + e.bytes.length))

/-- The text that stands for bytes. -/
def ofBytes (bytes : List UInt8) : Text :=
  ofBytesWith (·.map ofStrayByte) (bytes.length + 1) bytes

/-- Bytes as they are shown to people, with one replacement character for each fault. -/
def shownBytes (bytes : List UInt8) : Text :=
  ofBytesWith (fun _ => [.char '\ufffd']) (bytes.length + 1) bytes

/-- A text for bytes as it is shown to people. One without bytes is shown as it is. -/
def shownName (t : Text) : Text := t.toBytes.toOption.elim t shownBytes

end JobMatrix.Text
