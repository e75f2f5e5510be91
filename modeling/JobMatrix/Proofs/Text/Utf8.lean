import JobMatrix.Text.Utf8
import JobMatrix.Proofs.Outcome

set_option autoImplicit false

/-!
Decoding undoes encoding: the bytes of characters are read back as these characters. The reader is
followed byte by byte through the characters of each size; the bounds of the byte after the first
one are met because a character is no surrogate and its form is the shortest. The same bounds make
sure that bytes which are read as a character are those of this character.
-/

namespace JobMatrix.Text

/-! ### Texts of characters -/

theorem charactersFrom_eq_ok {offset : Nat} {t : Text} {cs : List Char} :
    charactersFrom offset t = .ok cs ↔ t = ofChars cs := by
  induction t generalizing offset cs with
  | nil => cases cs <;> simp [charactersFrom, ofChars]
  | cons c t ih =>
    cases c with
    | surrogate n => cases cs <;> simp [charactersFrom, ofChars]
    | char c =>
      simp only [charactersFrom, map_eq_ok, ih]
      cases cs with
      | nil => simp [ofChars]
      | cons d ds => simp [ofChars, and_comm]

theorem characters_eq_ok {t : Text} {cs : List Char} : t.characters = .ok cs ↔ t = ofChars cs :=
  charactersFrom_eq_ok

@[simp] theorem characters_ofChars (cs : List Char) : (ofChars cs).characters = .ok cs :=
  characters_eq_ok.mpr rfl

theorem ofChars_injective : Function.Injective ofChars :=
  List.map_injective_iff.mpr fun _ _ h => CodePoint.char.inj h

theorem ofString_injective : Function.Injective ofString :=
  fun _ _ h => String.toList_injective (ofChars_injective h)

/-! ### Texts with bytes -/

/-- No surrogate stands alone in the text. -/
def Encodable (t : Text) : Prop := ∀ c ∈ t, c.isSurrogate = false

variable {s t : Text}

@[simp] theorem encodable_append : Encodable (s ++ t) ↔ Encodable s ∧ Encodable t :=
  List.forall_mem_append

theorem encodable_ofChars (cs : List Char) : Encodable (ofChars cs) := by
  intro c member
  obtain ⟨d, -, rfl⟩ := List.mem_map.mp member
  rfl

@[simp] theorem encodable_ofString (s : String) : Encodable (ofString s) :=
  encodable_ofChars s.toList

theorem Encodable.exists_ofChars (h : Encodable t) : ∃ cs, t = ofChars cs := by
  induction t with
  | nil => exact ⟨[], rfl⟩
  | cons c t ih =>
    obtain ⟨first, rest⟩ := List.forall_mem_cons.mp h
    obtain ⟨cs, rfl⟩ := ih rest
    cases c with
    | surrogate n => cases first
    | char c => exact ⟨c :: cs, rfl⟩

theorem Encodable.exists_encodeUtf8 (h : Encodable t) : ∃ bytes, encodeUtf8 t = .ok bytes := by
  obtain ⟨cs, rfl⟩ := h.exists_ofChars
  exact ⟨_, bind_eq_ok.mpr ⟨cs, characters_ofChars cs, rfl⟩⟩

/-! ### The first byte of a character -/

theorem continuation_one {b : UInt8} (h : b.toNat < 0x80) : continuation b = some (0, 0, 0) := by
  simp only [continuation, UInt8.lt_iff_toNat_lt, UInt8.reduceToNat]
  rw [if_pos h]

theorem continuation_two {b : UInt8} (low : 0xC2 ≤ b.toNat) (high : b.toNat < 0xE0) :
    continuation b = some (1, 0x80, 0xBF) := by
  simp only [continuation, UInt8.lt_iff_toNat_lt, UInt8.reduceToNat]
  rw [if_neg (by omega), if_neg (by omega), if_pos high]

theorem continuation_three {b : UInt8} (low : 0xE0 ≤ b.toNat) (high : b.toNat < 0xF0) :
    continuation b = some (2, if b = 0xE0 then 0xA0 else 0x80, if b = 0xED then 0x9F else 0xBF) := by
  simp only [continuation, UInt8.lt_iff_toNat_lt, UInt8.reduceToNat, beq_iff_eq]
  rw [if_neg (by omega), if_neg (by omega), if_neg (by omega), if_pos high]
  by_cases first : b = 0xE0
  · simp [first]
  · by_cases surrogates : b = 0xED <;> simp [first, surrogates]

theorem continuation_four {b : UInt8} (low : 0xF0 ≤ b.toNat) (high : b.toNat < 0xF5) :
    continuation b = some (3, if b = 0xF0 then 0x90 else 0x80, if b = 0xF4 then 0x8F else 0xBF) := by
  have apart : ¬ b = 0xE0 ∧ ¬ b = 0xED := by
    constructor <;> rintro rfl <;> simp at low
  simp only [continuation, UInt8.lt_iff_toNat_lt, UInt8.reduceToNat, beq_iff_eq]
  rw [if_neg (by omega), if_neg (by omega), if_neg (by omega), if_neg apart.1, if_neg apart.2,
    if_neg (by omega)]
  by_cases first : b = 0xF0
  · simp [first]
  · by_cases last : b = 0xF4
    · simp [last]
    · have : b.toNat ≠ 0xF4 := fun h => last (UInt8.toNat_inj.mp h)
      simp only [first, last, if_false]
      rw [if_pos (by omega)]

theorem leadBits_two {b : UInt8} (low : 0xC2 ≤ b.toNat) (high : b.toNat < 0xE0) :
    leadBits b = b.toNat % 32 := by
  simp only [leadBits, UInt8.lt_iff_toNat_lt, UInt8.reduceToNat]
  rw [if_neg (by omega), if_pos high]

theorem leadBits_three {b : UInt8} (low : 0xE0 ≤ b.toNat) (high : b.toNat < 0xF0) :
    leadBits b = b.toNat % 16 := by
  simp only [leadBits, UInt8.lt_iff_toNat_lt, UInt8.reduceToNat]
  rw [if_neg (by omega), if_neg (by omega), if_pos high]

theorem leadBits_four {b : UInt8} (low : 0xF0 ≤ b.toNat) : leadBits b = b.toNat % 8 := by
  simp only [leadBits, UInt8.lt_iff_toNat_lt, UInt8.reduceToNat]
  rw [if_neg (by omega), if_neg (by omega), if_neg (by omega)]

/-! ### Reading a character byte by byte -/

theorem decodeFrom_lead {offset owed : Nat} {b low high : UInt8} {rest : List UInt8}
    (lead : continuation b = some (owed + 1, low, high)) :
    decodeFrom offset none (b :: rest) =
      decodeFrom (offset + 1) (some ⟨owed + 1, low, high, leadBits b, [b]⟩) rest := by
  simp [decodeFrom, lead]

theorem decodeFrom_tail {offset : Nat} {st : Utf8State} {b : UInt8} {rest : List UInt8}
    (low : st.low ≤ b) (high : b ≤ st.high) (owed : st.owed ≠ 1) :
    decodeFrom offset (some st) (b :: rest) =
      decodeFrom (offset + 1)
        (some ⟨st.owed - 1, 0x80, 0xBF, st.code * 64 + b.toNat % 64, b :: st.read⟩) rest := by
  simp [decodeFrom, low, high, owed]

theorem decodeFrom_last {offset : Nat} {st : Utf8State} {b : UInt8} {rest : List UInt8}
    (low : st.low ≤ b) (high : b ≤ st.high) (owed : st.owed = 1) :
    decodeFrom offset (some st) (b :: rest) =
      (decodeFrom (offset + 1) none rest).map
        (Char.ofNat (st.code * 64 + b.toNat % 64) :: ·) := by
  simp [decodeFrom, low, high, owed]

/-! ### Characters of each size -/

variable {offset : Nat} {a b c d : UInt8} {rest : List UInt8}

theorem decodeFrom_two (lead : 0xC2 ≤ a.toNat ∧ a.toNat < 0xE0)
    (second : 0x80 ≤ b.toNat ∧ b.toNat ≤ 0xBF) :
    decodeFrom offset none (a :: b :: rest) =
      (decodeFrom (offset + 2) none rest).map
        (Char.ofNat (a.toNat % 32 * 64 + b.toNat % 64) :: ·) := by
  rw [decodeFrom_lead (continuation_two lead.1 lead.2), leadBits_two lead.1 lead.2,
    decodeFrom_last second.1 second.2 rfl]

/-- The least first byte asks for a form that is the shortest, and `0xED` for no surrogate. -/
theorem decodeFrom_three (lead : 0xE0 ≤ a.toNat ∧ a.toNat < 0xF0)
    (second : 0x80 ≤ b.toNat ∧ b.toNat ≤ 0xBF) (third : 0x80 ≤ c.toNat ∧ c.toNat ≤ 0xBF)
    (shortest : a.toNat = 0xE0 → 0xA0 ≤ b.toNat) (scalar : a.toNat = 0xED → b.toNat ≤ 0x9F) :
    decodeFrom offset none (a :: b :: c :: rest) =
      (decodeFrom (offset + 3) none rest).map
        (Char.ofNat ((a.toNat % 16 * 64 + b.toNat % 64) * 64 + c.toNat % 64) :: ·) := by
  rw [decodeFrom_lead (continuation_three lead.1 lead.2), leadBits_three lead.1 lead.2,
    decodeFrom_tail ?low ?high (by simp), decodeFrom_last third.1 third.2 rfl]
  case low =>
    dsimp only
    split
    next first => exact shortest (congrArg UInt8.toNat first)
    next => exact second.1
  case high =>
    dsimp only
    split
    next surrogates => exact scalar (congrArg UInt8.toNat surrogates)
    next => exact second.2

/-- The least first byte asks for a form that is the shortest, the greatest for a code point. -/
theorem decodeFrom_four (lead : 0xF0 ≤ a.toNat ∧ a.toNat < 0xF5)
    (second : 0x80 ≤ b.toNat ∧ b.toNat ≤ 0xBF) (third : 0x80 ≤ c.toNat ∧ c.toNat ≤ 0xBF)
    (fourth : 0x80 ≤ d.toNat ∧ d.toNat ≤ 0xBF) (shortest : a.toNat = 0xF0 → 0x90 ≤ b.toNat)
    (bounded : a.toNat = 0xF4 → b.toNat ≤ 0x8F) :
    decodeFrom offset none (a :: b :: c :: d :: rest) =
      (decodeFrom (offset + 4) none rest).map (Char.ofNat
        (((a.toNat % 8 * 64 + b.toNat % 64) * 64 + c.toNat % 64) * 64 + d.toNat % 64) :: ·) := by
  rw [decodeFrom_lead (continuation_four lead.1 lead.2), leadBits_four lead.1,
    decodeFrom_tail ?low ?high (by simp), decodeFrom_tail third.1 third.2 (by simp),
    decodeFrom_last fourth.1 fourth.2 rfl]
  case low =>
    dsimp only
    split
    next first => exact shortest (congrArg UInt8.toNat first)
    next => exact second.1
  case high =>
    dsimp only
    split
    next last => exact bounded (congrArg UInt8.toNat last)
    next => exact second.2

/-! ### Decoding after encoding -/

theorem decodeFrom_encodeChar (offset : Nat) (ch : Char) (rest : List UInt8) :
    decodeFrom offset none (String.utf8EncodeChar ch ++ rest) =
      (decodeFrom (offset + (String.utf8EncodeChar ch).length) none rest).map (ch :: ·) := by
  have scalar : ch.val.toNat < 0xD800 ∨ 0xDFFF < ch.val.toNat ∧ ch.val.toNat < 0x110000 :=
    ch.valid
  have read (code : Nat) (h : code = ch.val.toNat) : Char.ofNat code = ch := by
    rw [h]
    exact Char.ofNat_toNat ch
  fun_cases String.utf8EncodeChar ch with
  | case1 v one =>
    have value : (UInt8.ofNat v).toNat = v := by simp; omega
    simp only [List.cons_append, List.nil_append, decodeFrom,
      continuation_one (show (UInt8.ofNat v).toNat < 0x80 by omega), read _ value]
    rfl
  | case2 v _ two =>
    simp only [List.cons_append, List.nil_append]
    rw [decodeFrom_two, read]
    · rfl
    all_goals
      simp only [UInt8.toNat_ofNat']
      omega
  | case3 v _ _ three =>
    simp only [List.cons_append, List.nil_append]
    rw [decodeFrom_three, read]
    · rfl
    all_goals
      simp only [UInt8.toNat_ofNat']
      omega
  | case4 v _ _ four =>
    simp only [List.cons_append, List.nil_append]
    rw [decodeFrom_four, read]
    · rfl
    all_goals
      simp only [UInt8.toNat_ofNat']
      omega

theorem decodeFrom_encodeChars (offset : Nat) (cs : List Char) :
    decodeFrom offset none (cs.flatMap String.utf8EncodeChar) = .ok cs := by
  induction cs generalizing offset with
  | nil => rfl
  | cons ch cs ih =>
    rw [List.flatMap_cons, decodeFrom_encodeChar, ih]
    rfl

theorem decodeUtf8_encodeChars (cs : List Char) :
    decodeUtf8 (cs.flatMap String.utf8EncodeChar) = .ok cs := decodeFrom_encodeChars 0 cs

/-- Texts with the same bytes are the same. -/
theorem eq_of_encodeUtf8 {s t : Text} {bytes : List UInt8} (hs : encodeUtf8 s = .ok bytes)
    (ht : encodeUtf8 t = .ok bytes) : s = t := by
  obtain ⟨cs, characters, spelled⟩ := bind_eq_ok.mp hs
  obtain ⟨ds, characters', spelled'⟩ := bind_eq_ok.mp ht
  rw [pure_eq_ok] at spelled spelled'
  have same : (.ok cs : Except Utf8Error (List Char)) = .ok ds := by
    rw [← decodeUtf8_encodeChars cs, ← decodeUtf8_encodeChars ds, spelled, spelled']
  obtain rfl := Except.ok.inj same
  rw [characters_eq_ok.mp characters, characters_eq_ok.mp characters']

/-! ### Encoding after decoding -/

theorem val_ofNat {n : Nat} (valid : n.isValidChar) : (Char.ofNat n).val.toNat = n := by
  rw [Char.ofNat, dif_pos valid]
  rfl

variable {bytes : List UInt8} {cs : List Char}

theorem encodeChar_one (lead : a.toNat < 0x80) :
    String.utf8EncodeChar (Char.ofNat a.toNat) = [a] := by
  have value := val_ofNat (n := a.toNat) (.inl (by omega))
  simp only [String.utf8EncodeChar, value]
  rw [if_pos (by omega), UInt8.ofNat_toNat]

theorem encodeChar_two (lead : 0xC2 ≤ a.toNat ∧ a.toNat < 0xE0)
    (second : 0x80 ≤ b.toNat ∧ b.toNat ≤ 0xBF) :
    String.utf8EncodeChar (Char.ofNat (a.toNat % 32 * 64 + b.toNat % 64)) = [a, b] := by
  have value := val_ofNat (n := a.toNat % 32 * 64 + b.toNat % 64) (.inl (by omega))
  simp only [String.utf8EncodeChar, value]
  rw [if_neg (by omega), if_pos (by omega)]
  simp only [List.cons.injEq, and_true, ← UInt8.toNat_inj, UInt8.toNat_ofNat']
  omega

theorem encodeChar_three (lead : 0xE0 ≤ a.toNat ∧ a.toNat < 0xF0)
    (second : 0x80 ≤ b.toNat ∧ b.toNat ≤ 0xBF) (third : 0x80 ≤ c.toNat ∧ c.toNat ≤ 0xBF)
    (shortest : a.toNat = 0xE0 → 0xA0 ≤ b.toNat) (scalar : a.toNat = 0xED → b.toNat ≤ 0x9F) :
    String.utf8EncodeChar
      (Char.ofNat ((a.toNat % 16 * 64 + b.toNat % 64) * 64 + c.toNat % 64)) = [a, b, c] := by
  have valid : ((a.toNat % 16 * 64 + b.toNat % 64) * 64 + c.toNat % 64).isValidChar := by
    unfold Nat.isValidChar
    omega
  simp only [String.utf8EncodeChar, val_ofNat valid]
  rw [if_neg (by omega), if_neg (by omega), if_pos (by omega)]
  simp only [List.cons.injEq, and_true, ← UInt8.toNat_inj, UInt8.toNat_ofNat']
  omega

theorem encodeChar_four (lead : 0xF0 ≤ a.toNat ∧ a.toNat < 0xF5)
    (second : 0x80 ≤ b.toNat ∧ b.toNat ≤ 0xBF) (third : 0x80 ≤ c.toNat ∧ c.toNat ≤ 0xBF)
    (fourth : 0x80 ≤ d.toNat ∧ d.toNat ≤ 0xBF) (shortest : a.toNat = 0xF0 → 0x90 ≤ b.toNat)
    (bounded : a.toNat = 0xF4 → b.toNat ≤ 0x8F) :
    String.utf8EncodeChar (Char.ofNat
      (((a.toNat % 8 * 64 + b.toNat % 64) * 64 + c.toNat % 64) * 64 + d.toNat % 64)) =
        [a, b, c, d] := by
  have valid : (((a.toNat % 8 * 64 + b.toNat % 64) * 64 + c.toNat % 64) * 64
      + d.toNat % 64).isValidChar := by
    unfold Nat.isValidChar
    omega
  simp only [String.utf8EncodeChar, val_ofNat valid]
  rw [if_neg (by omega), if_neg (by omega), if_neg (by omega)]
  simp only [List.cons.injEq, and_true, ← UInt8.toNat_inj, UInt8.toNat_ofNat']
  omega

theorem continuation_none (invalid : 0x80 ≤ a.toNat ∧ a.toNat < 0xC2 ∨ 0xF5 ≤ a.toNat) :
    continuation a = none := by
  have apart : ¬ a = 0xE0 ∧ ¬ a = 0xED ∧ ¬ a = 0xF0 ∧ ¬ a = 0xF4 := by
    refine ⟨?_, ?_, ?_, ?_⟩ <;> rintro rfl <;> simp at invalid
  simp only [continuation, UInt8.lt_iff_toNat_lt, UInt8.reduceToNat, beq_iff_eq]
  rcases invalid with ⟨low, high⟩ | high
  · rw [if_neg (by omega), if_pos high]
  · rw [if_neg (by omega), if_neg (by omega), if_neg (by omega), if_neg apart.1, if_neg apart.2.1,
      if_neg (by omega), if_neg apart.2.2.1, if_neg (by omega), if_neg apart.2.2.2]

/-- A character that has been begun goes on. -/
theorem exists_of_decodeFrom {st : Utf8State} (decoded : decodeFrom offset (some st) bytes = .ok cs) :
    ∃ b rest, bytes = b :: rest ∧ st.low ≤ b ∧ b ≤ st.high := by
  cases bytes with
  | nil => simp [decodeFrom] at decoded
  | cons b rest =>
    refine ⟨b, rest, rfl, ?_⟩
    by_contra outside
    have refused : ¬ (st.low ≤ b && b ≤ st.high) = true := by simpa using outside
    simp [decodeFrom, refused] at decoded

/-- The bounds of a second byte, which are closer after two of the first bytes. -/
theorem bounds_of_le {first last low high : UInt8} (above : (if a = first then low else 0x80) ≤ b)
    (below : b ≤ if a = last then high else 0xBF) (least : 0x80 ≤ low.toNat)
    (greatest : high.toNat ≤ 0xBF) :
    (0x80 ≤ b.toNat ∧ b.toNat ≤ 0xBF) ∧ (a.toNat = first.toNat → low.toNat ≤ b.toNat) ∧
      (a.toNat = last.toNat → b.toNat ≤ high.toNat) := by
  rw [UInt8.le_iff_toNat_le] at above below
  rw [UInt8.toNat_inj, UInt8.toNat_inj]
  refine ⟨⟨?_, ?_⟩, fun same => ?_, fun same => ?_⟩
  · split at above
    next => omega
    next => exact above
  · split at below
    next => omega
    next => exact below
  · rwa [if_pos same] at above
  · rwa [if_pos same] at below

/-- Bytes that are read as characters begin with the bytes of the first of them. -/
theorem exists_char_of_decodeFrom (decoded : decodeFrom offset none (a :: bytes) = .ok cs) :
    ∃ ch later rest offset', cs = ch :: later ∧ a :: bytes = String.utf8EncodeChar ch ++ rest ∧
      decodeFrom offset' none rest = .ok later := by
  have code := a.toNat_lt
  by_cases one : a.toNat < 0x80
  · simp only [decodeFrom, continuation_one one] at decoded
    obtain ⟨later, read, rfl⟩ := map_eq_ok.mp decoded
    exact ⟨_, later, bytes, _, rfl, by rw [encodeChar_one one]; rfl, read⟩
  by_cases invalid : a.toNat < 0xC2 ∨ 0xF5 ≤ a.toNat
  · have refused : continuation a = none := continuation_none (by omega)
    simp [decodeFrom, refused] at decoded
  by_cases two : a.toNat < 0xE0
  · rw [decodeFrom_lead (continuation_two (by omega) two), leadBits_two (by omega) two] at decoded
    obtain ⟨b, rest, rfl, low, high⟩ := exists_of_decodeFrom decoded
    rw [decodeFrom_last low high rfl] at decoded
    obtain ⟨later, read, rfl⟩ := map_eq_ok.mp decoded
    refine ⟨_, later, rest, _, rfl, ?_, read⟩
    rw [encodeChar_two ⟨by omega, two⟩ ⟨low, high⟩]
    rfl
  by_cases three : a.toNat < 0xF0
  · rw [decodeFrom_lead (continuation_three (by omega) three), leadBits_three (by omega) three] at decoded
    obtain ⟨b, rest, rfl, low, high⟩ := exists_of_decodeFrom decoded
    rw [decodeFrom_tail low high (by simp)] at decoded
    obtain ⟨c, rest, rfl, low', high'⟩ := exists_of_decodeFrom decoded
    rw [decodeFrom_last low' high' rfl] at decoded
    obtain ⟨later, read, rfl⟩ := map_eq_ok.mp decoded
    obtain ⟨second, shortest, scalar⟩ := bounds_of_le low high (by decide) (by decide)
    refine ⟨_, later, rest, _, rfl, ?_, read⟩
    rw [encodeChar_three ⟨by omega, three⟩ second ⟨low', high'⟩ shortest scalar]
    rfl
  · rw [decodeFrom_lead (continuation_four (by omega) (by omega)), leadBits_four (by omega)] at decoded
    obtain ⟨b, rest, rfl, low, high⟩ := exists_of_decodeFrom decoded
    rw [decodeFrom_tail low high (by simp)] at decoded
    obtain ⟨c, rest, rfl, low', high'⟩ := exists_of_decodeFrom decoded
    rw [decodeFrom_tail low' high' (by simp)] at decoded
    obtain ⟨d, rest, rfl, low'', high''⟩ := exists_of_decodeFrom decoded
    rw [decodeFrom_last low'' high'' rfl] at decoded
    obtain ⟨later, read, rfl⟩ := map_eq_ok.mp decoded
    obtain ⟨second, shortest, bounded⟩ := bounds_of_le low high (by decide) (by decide)
    refine ⟨_, later, rest, _, rfl, ?_, read⟩
    rw [encodeChar_four ⟨by omega, by omega⟩ second ⟨low', high'⟩ ⟨low'', high''⟩ shortest bounded]
    rfl

theorem flatMap_of_decodeFrom (decoded : decodeFrom offset none bytes = .ok cs) :
    cs.flatMap String.utf8EncodeChar = bytes := by
  induction cs generalizing offset bytes with
  | nil =>
    cases bytes with
    | nil => rfl
    | cons a bytes =>
      obtain ⟨ch, later, rest, offset', more, -⟩ := exists_char_of_decodeFrom decoded
      cases more
  | cons ch cs ih =>
    cases bytes with
    | nil => cases decoded
    | cons a bytes =>
      obtain ⟨ch, later, rest, offset', same, spelled, read⟩ := exists_char_of_decodeFrom decoded
      obtain ⟨rfl, rfl⟩ := List.cons.inj same
      rw [List.flatMap_cons, ih read, spelled]

/-- Encoding undoes decoding. -/
theorem encodeChars_of_decodeUtf8 (decoded : decodeUtf8 bytes = .ok cs) :
    cs.flatMap String.utf8EncodeChar = bytes := flatMap_of_decodeFrom decoded

end JobMatrix.Text
