import JobMatrix.Proofs.CacheKey.Scopes

set_option autoImplicit false

/-!
The readable key and the digest agree on which scopes are the same, for all instances and all
scopes. They part only where one scope is missing and the other one is empty: the key leaves both
out, and the digest is taken of them as they were given. What it is taken of loses nothing.
-/

namespace JobMatrix

/-! ### What the digest is taken of has bytes -/

namespace Text

variable {s : Text}

theorem Encodable.joined {between : Text} {ts : List Text} (apart : Encodable between)
    (each : ∀ t ∈ ts, Encodable t) : Encodable (Text.joined between ts) := by
  cases ts with
  | nil => exact List.forall_mem_nil _
  | cons t ts =>
    obtain ⟨first, rest⟩ := List.forall_mem_cons.mp each
    rw [joined_cons, encodable_append]
    refine ⟨first, fun c member => ?_⟩
    obtain ⟨s, inList, inPart⟩ := List.mem_flatMap.mp member
    exact encodable_append.mpr ⟨apart, rest s inList⟩ c inPart

theorem Encodable.stringText (h : Encodable s) : Encodable (Json.stringText s) := by
  have body : Encodable (s.flatMap Json.escapeCodePoint) := by
    intro c member
    obtain ⟨d, inText, escaped⟩ := List.mem_flatMap.mp member
    cases d with
    | surrogate n => cases h _ inText
    | char d => exact encodable_ofChars _ c escaped
  have opening : Encodable (ofString "\x22") := encodable_ofString _
  exact encodable_append.mpr ⟨encodable_append.mpr ⟨opening, body⟩, opening⟩

end Text

namespace CacheKey

open Json

theorem encodable_cellText {cell : Text × Text} (axis : cell.1.Encodable)
    (value : cell.2.Encodable) : (cellText cell).Encodable := by
  have comma : Text.Encodable Separators.tight.item := Text.encodable_ofString ","
  rw [cellText_eq]
  simp [axis.stringText, value.stringText, comma]

theorem encodable_stableText {platform : Text} {assignment : List (Text × Text)}
    {scope : Option Text} (label : platform.Encodable)
    (cells : ∀ cell ∈ assignment, cell.1.Encodable ∧ cell.2.Encodable)
    (front : ∀ s ∈ scope, s.Encodable) :
    Text.Encodable (stableText (payloadOf platform assignment scope)) := by
  have comma : Text.Encodable Separators.tight.item := Text.encodable_ofString ","
  have colon : Text.Encodable Separators.tight.name := Text.encodable_ofString ":"
  have inside : Text.Encodable (Text.joined Separators.tight.item (assignment.map cellText)) := by
    apply comma.joined
    intro t member
    obtain ⟨cell, inCells, rfl⟩ := List.mem_map.mp member
    exact encodable_cellText (cells cell inCells).1 (cells cell inCells).2
  have named (s : String) := (Text.encodable_ofString s).stringText
  cases scope with
  | none =>
    simp [stableText, payloadOf, line, memberLines, itemLines_cells, Text.joined_cons, comma, colon,
      inside, named, label.stringText]
  | some s =>
    simp [stableText, payloadOf, line, memberLines, itemLines_cells, Text.joined_cons, comma, colon,
      inside, named, label.stringText, (front s rfl).stringText]

/-- What the digest of characters is taken of. -/
def digestedText (scope : Option String) (platform : String) (assignment : List (String × String)) :
    Text :=
  stableText (payloadOf platform (ofStrings assignment) (scope.map Text.ofString))

theorem encodable_digestedText (scope : Option String) (platform : String)
    (assignment : List (String × String)) : (digestedText scope platform assignment).Encodable := by
  apply encodable_stableText (Text.encodable_ofString platform)
  · intro cell member
    obtain ⟨c, -, rfl⟩ := List.mem_map.mp member
    exact ⟨Text.encodable_ofString c.1, Text.encodable_ofString c.2⟩
  · intro s member
    obtain ⟨t, -, rfl⟩ := Option.map_eq_some_iff.mp member
    exact Text.encodable_ofString t

/-- What the digest is taken of is a faithful encoding, as a text and as bytes: it determines the
scope, a missing one apart from an empty one, the platform, and the assignment with its order and
its repetitions. -/
theorem digestedText_faithful (scope scope' : Option String) (platform platform' : String)
    (assignment assignment' : List (String × String)) :
    (digestedText scope platform assignment = digestedText scope' platform' assignment' ↔
      scope = scope' ∧ platform = platform' ∧ assignment = assignment') ∧
    ∃ bytes bytes', Text.encodeUtf8 (digestedText scope platform assignment) = .ok bytes ∧
      Text.encodeUtf8 (digestedText scope' platform' assignment') = .ok bytes' ∧
      (bytes = bytes' ↔ scope = scope' ∧ platform = platform' ∧ assignment = assignment') := by
  have texts : digestedText scope platform assignment = digestedText scope' platform' assignment' ↔
      scope = scope' ∧ platform = platform' ∧ assignment = assignment' := by
    rw [digestedText, digestedText, stableText_payloadOf_inj, Text.ofString_injective.eq_iff,
      ofStrings_injective.eq_iff, (Option.map_injective Text.ofString_injective).eq_iff]
    tauto
  obtain ⟨bytes, encoded⟩ := (encodable_digestedText scope platform assignment).exists_encodeUtf8
  obtain ⟨bytes', encoded'⟩ :=
    (encodable_digestedText scope' platform' assignment').exists_encodeUtf8
  refine ⟨texts, bytes, bytes', encoded, encoded', fun same => ?_, fun same => ?_⟩
  · subst same
    exact texts.mp (Text.eq_of_encodeUtf8 encoded encoded')
  · rw [texts.mpr same, encoded'] at encoded
    exact (Except.ok.inj encoded).symm

/-- Instances of characters have a key in every scope of characters. -/
theorem exists_resolve {i : Instance} {platform : String} {assignment : List (String × String)}
    (isPlatform : i.platform = .text platform) (cells : i.assignment = ofStrings assignment)
    (scope : Option String) (env : Entries Text) :
    ∃ key, resolve i (scope.map Text.ofString) .null env = .ok key := by
  obtain ⟨value, composed⟩ := exists_compose platform assignment scope
  obtain ⟨bytes, encoded⟩ := (encodable_digestedText scope platform assignment).exists_encodeUtf8
  refine ⟨⟨value, Digest.sha256 bytes, none, payloadOf platform i.assignment (scope.map Text.ofString)⟩, ?_⟩
  rw [digestedText, ← cells] at encoded
  rw [← cells] at composed
  exact resolve_eq_ok.mpr ⟨platform, bytes, isPlatform, rfl, composed, rfl, encoded, rfl⟩

/-! ### Both forms of a key -/

/-- One of the scopes is missing, and the other one is empty. -/
def MissingAndEmpty (scope scope' : Option Text) : Prop :=
  scope ≠ scope' ∧ scope.getD [] = scope'.getD []

/-- Keys are equal when what their digests are taken of is, and only then, but for scopes of which
one is missing and the other one is empty. -/
theorem value_eq_iff_payload_eq {i j : Instance} {scope scope' : Option Text}
    {template template' : Value} {env env' : Entries Text} {k l : CacheKey}
    (hk : resolve i scope template env = .ok k) (hl : resolve j scope' template' env' = .ok l) :
    (k.payload = l.payload ↔ stableText k.payload = stableText l.payload) ∧
      (k.value = l.value ↔ k.payload = l.payload ∨ SameScope i j ∧ MissingAndEmpty scope scope') ∧
      (¬MissingAndEmpty scope scope' → (k.value = l.value ↔ k.payload = l.payload)) := by
  have values := (keyed_of_resolve hk).value_eq_iff (keyed_of_resolve hl)
  have texts := (keyed_of_resolve hk).text_eq_iff (keyed_of_resolve hl)
  have payloads := (keyed_of_resolve hk).payload_eq_iff (keyed_of_resolve hl)
  have agree : k.value = l.value ↔
      k.payload = l.payload ∨ SameScope i j ∧ MissingAndEmpty scope scope' := by
    rw [values, payloads]
    constructor
    · rintro ⟨same, scopes⟩
      by_cases equal : scope = scope'
      · exact .inl ⟨same, equal⟩
      · exact .inr ⟨same, equal, scopes⟩
    · rintro (⟨same, rfl⟩ | ⟨same, -, scopes⟩)
      · exact ⟨same, rfl⟩
      · exact ⟨same, scopes⟩
  refine ⟨payloads.trans texts.symm, agree, fun clear => agree.trans (or_iff_left ?_)⟩
  rintro ⟨-, missing⟩
  exact clear missing

/-- The only instance of a job without a matrix. -/
def bare : Instance where
  job := "build"
  platform := .text ("linux" : String)

theorem resolve_bare (scope : Option String) :
    ∃ key, resolve bare (scope.map Text.ofString) .null [] = .ok key :=
  exists_resolve (show bare.platform = .text ("linux" : String) from rfl)
    (show bare.assignment = ofStrings [] from rfl) scope []

theorem bare_value_eq_iff_payload_eq :
    ∃ k l, resolve bare none .null [] = .ok k ∧
      resolve bare (some (Text.ofString "ci")) .null [] = .ok l ∧
      (k.value = l.value ↔ k.payload = l.payload) := by
  obtain ⟨k, hk⟩ := resolve_bare none
  obtain ⟨l, hl⟩ := resolve_bare (some "ci")
  obtain ⟨-, -, agree⟩ := value_eq_iff_payload_eq hk hl
  refine ⟨k, l, hk, hl, agree ?_⟩
  rintro ⟨-, same⟩
  exact absurd same (by decide)

/-- A scope that is empty gives the key that none gives, with another digest. -/
theorem bare_keys_agree_alone :
    ∃ k l, resolve bare none .null [] = .ok k ∧ resolve bare (some []) .null [] = .ok l ∧
      k.value = l.value ∧ k.payload ≠ l.payload ∧ stableText k.payload ≠ stableText l.payload := by
  obtain ⟨k, hk⟩ := resolve_bare none
  obtain ⟨l, hl⟩ := resolve_bare (some "")
  have keyed := keyed_of_resolve hk
  have keyed' := keyed_of_resolve hl
  have texts : stableText k.payload ≠ stableText l.payload := fun same =>
    nomatch ((keyed.text_eq_iff keyed').mp same).2
  have values : k.value = l.value := (keyed.value_eq_iff keyed').mpr ⟨⟨rfl, rfl⟩, rfl⟩
  exact ⟨k, l, hk, hl, values, fun same => texts (congrArg stableText same), texts⟩

end CacheKey

end JobMatrix
