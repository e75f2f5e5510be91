import JobMatrix.Files.Path
import JobMatrix.Proofs.Text.Utf8

set_option autoImplicit false

/-!
Texts that the system takes for names. Which texts have bytes is seen from their code points one by
one; and a text that comes back with ASCII characters only was handed over with the same characters,
as a byte below 128 is no part of another character and no surrogate stands for it.
-/

namespace JobMatrix.Text

variable {bytes : List UInt8} {cs : List Char} {t : Text}

/-! ### Bytes of texts -/

theorem bytesFrom_ofChars (offset : Nat) (cs : List Char) :
    bytesFrom offset (ofChars cs) = .ok (cs.flatMap String.utf8EncodeChar) := by
  induction cs generalizing offset with
  | nil => rfl
  | cons c cs ih =>
    change (bytesFrom (offset + 1) (ofChars cs)).map _ = _
    rw [ih]
    rfl

theorem strayByte?_ge {c : CodePoint} {b : UInt8} (stray : strayByte? c = some b) :
    0x80 ≤ b.toNat := by
  cases c with
  | char c => cases stray
  | surrogate n =>
    simp only [strayByte?, Option.ite_none_right_eq_some, Option.some.injEq, Bool.and_eq_true,
      decide_eq_true_eq] at stray
    obtain ⟨bounds, rfl⟩ := stray
    rw [UInt8.toNat_ofNat']
    omega

/-- Only the character itself has the byte of a character that has one byte. -/
theorem mem_encodeChar {c : Char} {b : UInt8} (small : b.toNat < 0x80) :
    b ∈ String.utf8EncodeChar c ↔ c.val.toNat = b.toNat := by
  have valid : c.val.toNat < 0xD800 ∨ 0xDFFF < c.val.toNat ∧ c.val.toNat < 0x110000 := c.valid
  fun_cases String.utf8EncodeChar c with
  | case1 v one =>
    simp only [List.mem_singleton, ← UInt8.toNat_inj, UInt8.toNat_ofNat']
    omega
  | case2 v _ two =>
    simp only [List.mem_cons, List.not_mem_nil, or_false, ← UInt8.toNat_inj, UInt8.toNat_ofNat']
    omega
  | case3 v _ _ three =>
    simp only [List.mem_cons, List.not_mem_nil, or_false, ← UInt8.toNat_inj, UInt8.toNat_ofNat']
    omega
  | case4 v _ _ four =>
    simp only [List.mem_cons, List.not_mem_nil, or_false, ← UInt8.toNat_inj, UInt8.toNat_ofNat']
    omega

/-- A text that files can be named by: no NUL is in it, and its surrogates stand for bytes. -/
def Nameable (t : Text) : Prop :=
  ∀ c ∈ t, c ≠ .char '\x00' ∧ (c.isSurrogate = true → (strayByte? c).isSome = true)

theorem zero_mem_encodeChar {c : Char} : 0 ∈ String.utf8EncodeChar c ↔ c = '\x00' := by
  rw [mem_encodeChar (by decide), Char.ext_iff, ← UInt32.toNat_inj]
  rfl

theorem exists_bytesFrom_iff {offset : Nat} :
    (∃ bytes, bytesFrom offset t = .ok bytes ∧ 0 ∉ bytes) ↔ Nameable t := by
  induction t generalizing offset with
  | nil => simp [bytesFrom, Nameable]
  | cons c t ih =>
    rw [Nameable, List.forall_mem_cons, ← Nameable, ← @ih (offset + 1)]
    cases c with
    | char c =>
      simp only [bytesFrom, map_eq_ok, ne_eq, CodePoint.char.injEq, ← zero_mem_encodeChar,
        CodePoint.isSurrogate, Bool.false_eq_true, false_implies, and_true]
      constructor
      · rintro ⟨_, ⟨bytes, read, rfl⟩, clean⟩
        obtain ⟨first, later⟩ := not_or.mp (mt List.mem_append.mpr clean)
        exact ⟨first, bytes, read, later⟩
      · rintro ⟨first, bytes, read, later⟩
        exact ⟨_, ⟨bytes, read, rfl⟩, mt List.mem_append.mp (not_or.mpr ⟨first, later⟩)⟩
    | surrogate n =>
      cases stray : strayByte? (.surrogate n) with
      | none => simp [bytesFrom, stray, CodePoint.isSurrogate]
      | some b =>
        have high := strayByte?_ge stray
        have first : (0 : UInt8) ≠ b := by
          rintro rfl
          exact absurd high (by decide)
        simp [bytesFrom, stray, map_eq_ok, first]

theorem systemBytes_eq_ok : t.systemBytes = .ok bytes ↔ t.toBytes = .ok bytes ∧ 0 ∉ bytes := by
  unfold systemBytes
  cases t.toBytes with
  | error e => simp
  | ok read =>
    by_cases nul : 0 ∈ read
    · simp only [List.contains_eq_mem, nul, decide_true, if_true, reduceCtorEq, Except.ok.injEq,
        false_iff, not_and, not_not]
      rintro rfl
      exact nul
    · simp only [List.contains_eq_mem, nul, decide_false, Bool.false_eq_true, if_false,
        Except.ok.injEq, iff_self_and]
      rintro rfl
      exact nul

/-- A file can be looked for by a text just when the text has bytes for its name. -/
theorem exists_systemBytes_iff : (∃ bytes, t.systemBytes = .ok bytes) ↔ Nameable t := by
  simp only [systemBytes_eq_ok]
  exact exists_bytesFrom_iff

theorem nameable_append {s t : Text} : Nameable (s ++ t) ↔ s.Nameable ∧ t.Nameable :=
  List.forall_mem_append

theorem nameable_joined {between : Text} (named : between.Nameable) {parts : List Text} :
    (joined between parts).Nameable ↔ ∀ part ∈ parts, part.Nameable := by
  induction parts with
  | nil => simp [joined, Nameable]
  | cons part parts ih =>
    cases parts with
    | nil => simp [joined]
    | cons next parts =>
      simp only [joined] at ih ⊢
      rw [List.intercalate_cons_cons]
      rw [List.forall_mem_cons, ← ih, nameable_append, nameable_append]
      simp [named]

theorem exists_settled_iff {t : Text} : (∃ s, t.settled = .ok s) ↔ t.Nameable := by
  rw [← exists_systemBytes_iff]
  unfold settled
  cases t.systemBytes with
  | error e => simp
  | ok bytes => simp

/-! ### Texts from bytes -/

/-- A fault is at a byte. -/
theorem bytes_ne_nil_of_decodeFrom {offset : Nat} {st : Option Utf8State} {e : Utf8Error}
    (begun : ∀ s, st = some s → s.read ≠ []) (refused : decodeFrom offset st bytes = .error e) :
    e.bytes ≠ [] := by
  fun_induction decodeFrom offset st bytes with
  | case1 => cases refused
  | case2 offset st =>
    obtain rfl := Except.error.inj refused
    simpa using begun st rfl
  | case3 =>
    obtain rfl := Except.error.inj refused
    simp
  | case4 offset b rest low high lead ih =>
    exact ih (by simp) (map_eq_error.mp refused)
  | case5 offset b rest owed low high more lead ih => exact ih (by simp) refused
  | case6 offset st b rest within code last ih => exact ih (by simp) (map_eq_error.mp refused)
  | case7 offset st b rest within code more ih => exact ih (by simp) refused
  | case8 offset st b rest outside =>
    obtain rfl := Except.error.inj refused
    simpa using begun st rfl

/-- Only the bytes of characters are read as characters. -/
theorem decodeUtf8_of_ofBytes (read : ofBytes bytes = ofChars cs) : decodeUtf8 bytes = .ok cs := by
  rw [ofBytes, ofBytesWith] at read
  split at read
  next cs' decoded => rw [decoded, ofChars_injective read]
  next e refused =>
    exfalso
    have fault := bytes_ne_nil_of_decodeFrom (fun st none => by cases none) refused
    obtain ⟨b, rest, some⟩ := List.exists_cons_of_ne_nil fault
    have plain := encodable_ofChars cs (ofStrayByte b)
    rw [← read, some] at plain
    simp [CodePoint.isSurrogate, ofStrayByte] at plain

theorem encodable_of_bytesFrom {offset : Nat} (read : bytesFrom offset t = .ok bytes)
    (ascii : ∀ b ∈ bytes, b.toNat < 0x80) : Encodable t := by
  induction t generalizing offset bytes with
  | nil => exact List.forall_mem_nil _
  | cons c t ih =>
    cases c with
    | char c =>
      obtain ⟨later, reads, rfl⟩ := map_eq_ok.mp read
      refine List.forall_mem_cons.mpr ⟨rfl, ih reads fun b member => ?_⟩
      exact ascii b (List.mem_append_right _ member)
    | surrogate n =>
      cases stray : strayByte? (.surrogate n) with
      | none => simp [bytesFrom, stray] at read
      | some b =>
        simp only [bytesFrom, stray, map_eq_ok] at read
        obtain ⟨later, -, rfl⟩ := read
        have small := ascii b List.mem_cons_self
        have high := strayByte?_ge stray
        omega

theorem encodeChar_of_lt {c : Char} (small : c.val.toNat < 0x80) :
    String.utf8EncodeChar c = [UInt8.ofNat c.val.toNat] := if_pos (by omega)

/-- A text of ASCII characters comes back from the system only where it was handed over. -/
theorem settled_eq_ofChars_iff (ascii : ∀ c ∈ cs, 0 < c.val.toNat ∧ c.val.toNat < 0x80) :
    t.settled = .ok (ofChars cs) ↔ t = ofChars cs := by
  have small : ∀ b ∈ cs.flatMap String.utf8EncodeChar, 0 < b.toNat ∧ b.toNat < 0x80 := by
    intro b member
    obtain ⟨c, here, spelled⟩ := List.mem_flatMap.mp member
    obtain ⟨low, high⟩ := ascii c here
    rw [encodeChar_of_lt high, List.mem_singleton] at spelled
    rw [spelled, UInt8.toNat_ofNat']
    omega
  constructor
  · intro settles
    obtain ⟨bytes, handed, read⟩ := bind_eq_ok.mp settles
    have decoded := decodeUtf8_of_ofBytes (pure_eq_ok.mp read)
    obtain rfl := encodeChars_of_decodeUtf8 decoded
    obtain ⟨handed, -⟩ := systemBytes_eq_ok.mp handed
    obtain ⟨ds, rfl⟩ :=
      (encodable_of_bytesFrom handed fun b member => (small b member).2).exists_ofChars
    rw [toBytes, bytesFrom_ofChars, Except.ok.injEq] at handed
    rw [← handed, decodeUtf8_encodeChars, Except.ok.injEq] at decoded
    rw [decoded]
  · rintro rfl
    have clean : 0 ∉ cs.flatMap String.utf8EncodeChar := fun nul => by
      simpa using (small 0 nul).1
    refine bind_eq_ok.mpr ⟨_, systemBytes_eq_ok.mpr ⟨bytesFrom_ofChars 0 cs, clean⟩, ?_⟩
    rw [pure_eq_ok, ofBytes, ofBytesWith, decodeUtf8_encodeChars]

theorem settled_eq_up_iff : t.settled = .ok Path.up ↔ t = Path.up := by
  have ascii : 0 < '.'.val.toNat ∧ '.'.val.toNat < 0x80 := by decide
  refine @settled_eq_ofChars_iff ['.', '.'] t fun c member => ?_
  obtain rfl : c = '.' := by simpa using member
  exact ascii

end JobMatrix.Text
