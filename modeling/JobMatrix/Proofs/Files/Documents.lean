import JobMatrix.Load
import JobMatrix.Proofs.Yaml.Faults

set_option autoImplicit false

/-!
Reading documents. The content of a file gives a mapping or is refused with the path of the file,
but for contents whose faults are not among those that YAML reports.
-/

namespace JobMatrix

namespace Load

/-- A failure to load the file at a path. -/
def Refuses (path : Text) (f : Failure) : Prop := ∃ e, f = .unloadable e ∧ e.path = path

/-- Data with a mapping at its root, which has these entries. -/
def IsMapping (r : Yaml.Document × List (Value × Nat)) : Prop := r.1.cell r.1.root = .map r.2

/-- What comes out of a content that is neither read nor refused with the path: bytes that are no
UTF-8, and faults of the text or of its data that are no problems to report. -/
inductive Escapes (bytes : List UInt8) : Failure → Prop where
  | notUtf8 {e : Text.Utf8Error} (undecoded : Text.decodeUtf8 bytes = .error e) :
      Escapes bytes (.notUtf8 e)
  | text {cs : List Char} {f : Yaml.Fault} (decoded : Text.decodeUtf8 bytes = .ok cs)
      (fault : Yaml.TextFault (normalBreaks cs) f)
      (unreported : yamlText? (normalBreaks cs) f = none) : Escapes bytes (.yaml f)
  | data {cs : List Char} {g : Yaml.Graph} {f : Yaml.Fault}
      (decoded : Text.decodeUtf8 bytes = .ok cs)
      (read : Yaml.Graph.ofText (normalBreaks cs) = .ok g) (fault : g.DataFault f)
      (unreported : yamlText? (normalBreaks cs) f = none) : Escapes bytes (.yaml f)

variable {path : Text} {bytes : List UInt8}

theorem ends_parse {cs : List Char} (decoded : Text.decodeUtf8 bytes = .ok cs) :
    Ends (fun _ => True) (fun f => Refuses path f ∨ Escapes bytes f)
      (parse path (normalBreaks cs)) := by
  unfold parse
  split
  next => trivial
  next fault failed =>
    split
    next => exact .inl ⟨_, rfl, rfl⟩
    next unreported =>
      rcases Yaml.Document.fault_of_ofText failed with text | ⟨g, read, data⟩
      · exact .inr (.text decoded text unreported)
      · exact .inr (.data decoded read data unreported)

/-- Other data can be put in the place of a mapping at the root. -/
theorem cell_withRoot {d : Yaml.Document} {entries : List (Value × Nat)}
    (root : d.cell d.root = .map entries) (cell : Yaml.Cell) :
    (d.withRoot cell).cell d.root = cell := by
  have inside : d.root < d.cells.size := by
    by_contra outside
    simp [Yaml.Document.cell, Array.getElem?_eq_none (Nat.not_lt.mp outside)] at root
  simp [Yaml.Document.cell, Yaml.Document.withRoot, inside]

/-- Every content of a file gives a mapping, is refused with the path of the file, or has one of the
faults that come out otherwise. -/
theorem readMapping_ends (path : Text) (bytes : List UInt8) :
    Ends IsMapping (fun f => Refuses path f ∨ Escapes bytes f) (readMapping path bytes) := by
  unfold readMapping
  split
  next e undecoded => exact .inr (.notUtf8 undecoded)
  next cs decoded =>
    refine (ends_parse decoded).bind fun d _ => ?_
    split
    next entries root => exact cell_withRoot root _
    next => exact .inl ⟨_, rfl, rfl⟩

/-- An escape beyond the last code point. -/
def beyondCodePoints : List Char := "on: \"\\U00110000\"\n".toList

/-- A date in a month that is none. -/
def monthThirteen : List Char := "on: 2024-13-01\n".toList

/-- A text with the tag of a mapping. -/
def taggedText : List Char := "jobs: !!map x\n".toList

/-- The reading of a content ends in a failure that is none of loading. -/
def failsOtherwise (bytes : List UInt8) : Bool :=
  match readMapping "w.yml" bytes with
  | .ok _ => false
  | .error f => f.kind != "WorkflowLoadError"

theorem not_ends_of_failsOtherwise (otherwise : failsOtherwise bytes = true) :
    ¬ Ends IsMapping (Refuses "w.yml") (readMapping "w.yml" bytes) := by
  intro ends
  unfold failsOtherwise at otherwise
  split at otherwise
  next => cases otherwise
  next f failed =>
    rw [failed] at ends
    obtain ⟨e, rfl, -⟩ := ends
    simp [Failure.kind] at otherwise

/-- A byte that begins no character, an escape beyond the last code point, a date that there is not,
and a text in place of a mapping: none of these contents is refused with the path. -/
theorem contents_read_otherwise :
    ¬ Ends IsMapping (Refuses "w.yml") (readMapping "w.yml" [0xff]) ∧
    ¬ Ends IsMapping (Refuses "w.yml")
      (readMapping "w.yml" (beyondCodePoints.flatMap String.utf8EncodeChar)) ∧
    ¬ Ends IsMapping (Refuses "w.yml")
      (readMapping "w.yml" (monthThirteen.flatMap String.utf8EncodeChar)) ∧
    ¬ Ends IsMapping (Refuses "w.yml")
      (readMapping "w.yml" (taggedText.flatMap String.utf8EncodeChar)) := by
  refine ⟨?_, ?_, ?_, ?_⟩ <;> exact not_ends_of_failsOtherwise (by decide +kernel)

end Load

end JobMatrix
