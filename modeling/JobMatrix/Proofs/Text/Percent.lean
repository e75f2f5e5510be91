import JobMatrix.Text.Percent
import JobMatrix.Proofs.Text.Utf8

set_option autoImplicit false

/-!
Percent decoding, and what an escaped text is: it is decoded to the text it was made of, and it
holds unreserved characters and percent signs only.
-/

namespace JobMatrix.Text

/-- The value of a hexadecimal digit in either case. -/
def hexValue? (c : Char) : Option Nat :=
  if '0' ≤ c ∧ c ≤ '9' then some (c.toNat - 48)
  else if 'A' ≤ c ∧ c ≤ 'F' then some (c.toNat - 55)
  else if 'a' ≤ c ∧ c ≤ 'f' then some (c.toNat - 87)
  else none

/-- The bytes of a text in which escapes stand for bytes and all else for its UTF-8 form. A percent
sign that starts no escape has no bytes. -/
def percentBytes? : Text → Option (List UInt8)
  | [] => some []
  | .char '%' :: .char high :: .char low :: rest => do
    let h ← hexValue? high
    let l ← hexValue? low
    return UInt8.ofNat (h * 16 + l) :: (← percentBytes? rest)
  | .char c :: rest =>
    if c = '%' then none else (percentBytes? rest).map (String.utf8EncodeChar c ++ ·)
  | .surrogate _ :: _ => none

/-- The text that an escaped text stands for, when its bytes are UTF-8. -/
def percentDecode? (t : Text) : Option Text := do
  return ofChars (← (decodeUtf8 (← percentBytes? t)).toOption)

/-! ### Digits and unreserved characters -/

theorem hexValue?_upperHexDigit : ∀ n < 16, hexValue? (upperHexDigit n) = some n := by decide

theorem isUnreserved_upperHexDigit : ∀ n < 16, isUnreserved (upperHexDigit n) = true := by decide

theorem ne_percent_of_isUnreserved {c : Char} (h : isUnreserved c = true) : c ≠ '%' := by
  rintro rfl
  exact absurd h (by decide)

/-! ### Decoding after escaping -/

theorem percentBytes?_cons {c : Char} (h : c ≠ '%') (rest : Text) :
    percentBytes? (.char c :: rest) =
      (percentBytes? rest).map (String.utf8EncodeChar c ++ ·) := by
  rw [percentBytes?, if_neg h]
  exact fun _ _ _ _ same => h same

theorem percentBytes?_escapeByte (b : UInt8) (rest : Text) :
    percentBytes? (ofChars (escapeByte b) ++ rest) = (percentBytes? rest).map (b :: ·) := by
  have bound := b.toNat_lt
  have high := hexValue?_upperHexDigit (b.toNat / 16) (by omega)
  have low := hexValue?_upperHexDigit (b.toNat % 16) (by omega)
  have whole : UInt8.ofNat (b.toNat / 16 * 16 + b.toNat % 16) = b := by
    rw [Nat.div_add_mod']
    exact UInt8.ofNat_toNat
  simp only [escapeByte, ofChars, List.map_cons, List.map_nil, List.cons_append, List.nil_append,
    percentBytes?, high, low, Option.bind_eq_bind, Option.bind_some, whole]
  cases percentBytes? rest <;> rfl

theorem percentBytes?_escapeBytes (bs : List UInt8) (rest : Text) :
    percentBytes? (ofChars (bs.flatMap escapeByte) ++ rest) = (percentBytes? rest).map (bs ++ ·) := by
  induction bs with
  | nil => simp [ofChars]
  | cons b bs ih =>
    rw [List.flatMap_cons, ofChars, List.map_append, List.append_assoc]
    rw [← ofChars, ← ofChars, percentBytes?_escapeByte, ih, Option.map_map]
    rfl

theorem percentBytes?_escapeChar (c : Char) (rest : Text) :
    percentBytes? (ofChars (escapeChar c) ++ rest) =
      (percentBytes? rest).map (String.utf8EncodeChar c ++ ·) := by
  unfold escapeChar
  split
  next plain => exact percentBytes?_cons (ne_percent_of_isUnreserved plain) rest
  next => exact percentBytes?_escapeBytes _ rest

theorem percentBytes?_escapeChars (cs : List Char) :
    percentBytes? (ofChars (cs.flatMap escapeChar)) = some (cs.flatMap String.utf8EncodeChar) := by
  induction cs with
  | nil => rfl
  | cons c cs ih =>
    rw [List.flatMap_cons, ofChars, List.map_append, ← ofChars, ← ofChars, percentBytes?_escapeChar,
      ih]
    rfl

theorem percentEscape_eq_ok {t e : Text} :
    percentEscape t = .ok e ↔ ∃ cs, t = ofChars cs ∧ e = ofChars (cs.flatMap escapeChar) := by
  simp only [percentEscape, bind_eq_ok, characters_eq_ok, pure_eq_ok, eq_comm (a := e)]

theorem percentDecode?_percentEscape {t e : Text} (escaped : percentEscape t = .ok e) :
    percentDecode? e = some t := by
  obtain ⟨cs, rfl, rfl⟩ := percentEscape_eq_ok.mp escaped
  simp only [percentDecode?, percentBytes?_escapeChars, Option.bind_eq_bind, Option.bind_some,
    decodeUtf8_encodeChars]
  rfl

/-! ### The characters of an escaped text -/

theorem mem_escapeChar {c d : Char} (h : d ∈ escapeChar c) : isUnreserved d = true ∨ d = '%' := by
  unfold escapeChar at h
  split at h
  next plain => exact .inl (List.mem_singleton.mp h ▸ plain)
  next =>
    obtain ⟨b, -, hd⟩ := List.mem_flatMap.mp h
    have bound := b.toNat_lt
    simp only [escapeByte, List.mem_cons, List.not_mem_nil, or_false] at hd
    rcases hd with rfl | rfl | rfl
    · exact .inr rfl
    · exact .inl (isUnreserved_upperHexDigit _ (by omega))
    · exact .inl (isUnreserved_upperHexDigit _ (by omega))

/-- A character that is neither unreserved nor a percent sign stands in no escaped text. -/
theorem not_mem_percentEscape {t e : Text} (escaped : percentEscape t = .ok e) {d : Char}
    (reserved : isUnreserved d = false) (other : d ≠ '%') : CodePoint.char d ∉ e := by
  obtain ⟨cs, rfl, rfl⟩ := percentEscape_eq_ok.mp escaped
  intro member
  obtain ⟨d', hd, same⟩ := List.mem_map.mp member
  cases same
  obtain ⟨c, -, hc⟩ := List.mem_flatMap.mp hd
  rcases mem_escapeChar hc with plain | percent
  · simp [plain] at reserved
  · exact other percent

end JobMatrix.Text
