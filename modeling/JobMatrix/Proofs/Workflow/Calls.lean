import Mathlib.Data.List.Chain
import JobMatrix.Proofs.Number.Digits
import JobMatrix.Proofs.Workflow.Checks
import JobMatrix.Proofs.Workflow.Scripts

set_option autoImplicit false

/-!
Calls of the function of a script. The function is called without arguments, and a complaint with
certain words is taken for a sign that another function has taken its name. A parameter that has to
be given by place leads to these words. One that has to be given by name does not, as long as names
have no blanks in them; and a function that needs nothing can fail with the words on its own.
-/

namespace JobMatrix

open List (IsChain)

/-! ### Words -/

namespace Text

theorem ofString_append (s u : String) : ofString (s ++ u) = ofString s ++ ofString u := by
  simp [ofString, ofChars]

/-- No blank comes right after a letter l, be it in the string or behind it. -/
structure Plain (s : String) : Prop where
  apart : IsChain (fun c d => c = 'l' → d ≠ ' ') s.toList
  last : s.toList.getLast? ≠ some 'l'

theorem plain_of_unspaced {s : String} (unspaced : ' ' ∉ s.toList)
    (last : s.toList.getLast? ≠ some 'l') : Plain s := by
  refine ⟨?_, last⟩
  apply List.Pairwise.isChain
  apply List.pairwise_of_forall_mem_list
  rintro c _ d member - rfl
  exact unspaced member

theorem Plain.append {s u : String} (first : Plain s) (second : Plain u) : Plain (s ++ u) := by
  constructor
  · rw [String.toList_append]
    apply List.isChain_append.mpr ⟨first.apart, second.apart, ?_⟩
    rintro c isLast d _ rfl
    exact absurd isLast first.last
  · rw [String.toList_append, List.getLast?_append]
    intro isLast
    rcases Option.or_eq_some_iff.mp isLast with here | ⟨-, before⟩
    · exact second.last here
    · exact first.last before

theorem plain_empty : Plain "" := ⟨by decide, by decide⟩

theorem plain_intercalate {separator : String} (between : Plain separator) {parts : List String}
    (each : ∀ s ∈ parts, Plain s) : Plain (separator.intercalate parts) := by
  induction parts with
  | nil => exact plain_empty
  | cons s parts ih =>
    obtain ⟨here, each⟩ := List.forall_mem_cons.mp each
    cases parts with
    | nil => exact here
    | cons u parts =>
      rw [String.intercalate_cons_cons]
      exact (here.append between).append (ih each)

/-- The words by which a complaint about a call is known. -/
def placeWords : Text := ofString "positional argument"

/-- The words have a blank right after a letter l. -/
theorem Plain.not_placeWords {s : String} (plain : Plain s) : ¬ placeWords <:+: ofString s := by
  intro inside
  have apart : IsChain (fun c d => c = .char 'l' → d ≠ .char ' ') (ofString s) := by
    rw [ofString, ofChars, List.isChain_map]
    simpa using plain.apart
  have words := apart.infix inside
  revert words
  decide

/-! ### Quoted names -/

theorem hexDigit_ne_blank : ∀ n < 16, hexDigit n ≠ ' ' := by decide

theorem blank_notMem_hexDigits (width n : Nat) : ' ' ∉ hexDigits width n := by
  induction width generalizing n with
  | zero => simp [hexDigits]
  | succ width ih =>
    have here := (hexDigit_ne_blank (n % 16) (Nat.mod_lt n (by decide))).symm
    simp [hexDigits, ih, here]

theorem blank_notMem_quoteCodePoint {quote : Char} {c : CodePoint} (other : c ≠ .char ' ') :
    ' ' ∉ quoteCodePoint quote c := by
  cases c with
  | surrogate s => simp [quoteCodePoint, blank_notMem_hexDigits]
  | char c =>
    have here : ' ' ≠ c := by
      rintro rfl
      exact other rfl
    rw [quoteCodePoint, quoteChar]
    split_ifs <;> simp [blank_notMem_hexDigits, here]

theorem quoteFor_plain (single double : Bool) :
    quoteFor single double ≠ ' ' ∧ quoteFor single double ≠ 'l' := by
  cases single <;> cases double <;> decide

theorem blank_notMem_quoteChars {t : Text} (unspaced : .char ' ' ∉ t) : ' ' ∉ quoteChars t := by
  have inner (quote : Char) : ' ' ∉ t.flatMap (quoteCodePoint quote) := by
    intro member
    obtain ⟨c, inText, here⟩ := List.mem_flatMap.mp member
    apply blank_notMem_quoteCodePoint _ here
    rintro rfl
    exact unspaced inText
  have outer (single double : Bool) : ' ' ≠ quoteFor single double :=
    (quoteFor_plain single double).1.symm
  simp only [quoteChars, List.cons_append, List.mem_cons, List.mem_append, List.not_mem_nil, inner,
    outer, or_self, not_false_eq_true]

theorem plain_quoted {t : Text} (unspaced : .char ' ' ∉ t) : Plain (quoted t) := by
  apply plain_of_unspaced
  · rw [quoted, String.toList_ofList]
    exact blank_notMem_quoteChars unspaced
  · rw [quoted, String.toList_ofList, quoteChars, List.getLast?_concat]
    intro last
    exact (quoteFor_plain _ _).2 (Option.some.inj last)

end Text

/-! ### Complaints about calls -/

namespace CallFault

open Text

variable {operation : String} {names : List Text}

theorem plain_listing (unspaced : ∀ n ∈ names, .char ' ' ∉ n) : Plain (listing names) := by
  have each : ∀ s ∈ names.map quoted, Plain s := by
    intro s member
    obtain ⟨n, inNames, rfl⟩ := List.mem_map.mp member
    exact plain_quoted (unspaced n inNames)
  have conjunction : Plain " and " := ⟨by decide, by decide⟩
  have comma : Plain ", " := ⟨by decide, by decide⟩
  have final : Plain ", and " := ⟨by decide, by decide⟩
  unfold listing
  generalize names.map quoted = parts at each
  split
  next => exact plain_empty
  next s => exact each s (by simp)
  next s u => exact ((each s (by simp)).append conjunction).append (each u (by simp))
  next =>
    have front : Plain (", ".intercalate parts.dropLast) := by
      apply plain_intercalate comma
      intro s member
      exact each s (List.dropLast_subset parts member)
    apply (front.append final).append
    rw [List.getLastD_eq_getLast?]
    cases last : parts.getLast? with
    | none => exact plain_empty
    | some s => exact each s (List.mem_of_getLast? last)

theorem plain_plural (count : Nat) : Plain (plural count) := by
  unfold plural
  split
  next => exact ⟨by decide, by decide⟩
  next => exact ⟨by decide, by decide⟩

theorem plain_toString (n : Nat) : Plain (toString n) := by
  have spelled : (toString n).toList = Nat.toDigits 10 n := Nat.toList_repr
  have digits := allDigits_toDigits n
  apply plain_of_unspaced
  · rw [spelled]
    intro member
    exact absurd (digits ' ' member) (by decide)
  · rw [spelled]
    intro last
    exact absurd (digits 'l' (List.mem_of_getLast? last)) (by decide)

/-- A complaint about parameters by name has none of the words of one about parameters by place. -/
theorem plain_missingNamed (plain : ' ' ∉ operation.toList) (unspaced : ∀ n ∈ names, .char ' ' ∉ n) :
    Plain (missingText operation "keyword-only" names) := by
  have verb : "() missing " = "()" ++ " missing " := by decide
  have called : Plain (operation ++ "()") := by
    apply plain_of_unspaced
    · simp [plain]
    · simp
  rw [missingText, verb, ← String.append_assoc]
  have missing : Plain " missing " := ⟨by decide, by decide⟩
  have required : Plain " required " := ⟨by decide, by decide⟩
  have kind : Plain "keyword-only" := ⟨by decide, by decide⟩
  have argument : Plain " argument" := ⟨by decide, by decide⟩
  have colon : Plain ": " := ⟨by decide, by decide⟩
  have counted := ((called.append missing).append (plain_toString names.length)).append required
  exact ((((counted.append kind).append argument).append (plain_plural names.length)).append
    colon).append (plain_listing unspaced)

end CallFault

/-! ### Calls without arguments -/

namespace Signature

/-- The function can be called without arguments. -/
structure Free (s : Signature) : Prop where
  placed : s.required = []
  named : s.requiredNamed = []

/-- Neither the name of the function nor those of its parameters have blanks in them. -/
structure Unspaced (s : Signature) : Prop where
  operation : ' ' ∉ s.operation.toList
  named : ∀ n ∈ s.requiredNamed, .char ' ' ∉ n

theorem bind_nothing (s : Signature) : s.bind ([] : List Value) [] =
    if s.required ≠ [] then .error (.missing s.operation s.required)
    else if s.requiredNamed ≠ [] then .error (.missingNamed s.operation s.requiredNamed)
    else .ok {} := by
  have all (names : List Text) :
      names.filter (fun n => (Entries.get? ([] : Entries Value) n).isNone) = names := by
    rw [List.filter_eq_self]
    intro n _
    rfl
  unfold Signature.bind
  by_cases placed : s.required = []
  · by_cases named : s.requiredNamed = []
    · simp [all, placed, named, pure, Except.pure, Bind.bind, Except.bind]
    · simp [all, placed, named, pure, Except.pure, Bind.bind, Except.bind]
  · simp [all, placed, pure, Except.pure, Bind.bind, Except.bind]

end Signature

namespace ScriptFunction

variable {f : ScriptFunction}

theorem call_of_required (required : f.signature.required ≠ []) :
    f.call = .error (.call (.missing f.signature.operation f.signature.required)) := by
  rw [call, Signature.bind_nothing, if_pos required]

theorem call_of_requiredNamed (placed : f.signature.required = [])
    (named : f.signature.requiredNamed ≠ []) :
    f.call = .error (.call (.missingNamed f.signature.operation f.signature.requiredNamed)) := by
  rw [call, Signature.bind_nothing, if_neg (not_not.mpr placed), if_pos named]

theorem call_of_free (free : f.signature.Free) : f.call = f.body := by
  rw [call, Signature.bind_nothing, if_neg (not_not.mpr free.placed), if_neg (not_not.mpr free.named)]

end ScriptFunction

namespace Load

open Text

theorem occursIn_iff {part whole : Text} : occursIn part whole = true ↔ part <:+: whole := by
  induction whole with
  | nil => simp [occursIn]
  | cons c whole ih =>
    rw [occursIn, Bool.or_eq_true, List.isPrefixOf_iff_prefix, ih, List.infix_cons_iff]

/-- The failure by which a name collision is reported. -/
def collision (path : Text) : Failure :=
  .unloadable { path, obstacle := .nameCollision, details := [collisionHint] }

/-- The failure has the words of a complaint about parameters by place. -/
def SpeaksOfPlaces (e : Failure) : Prop := e.kind = "TypeError" ∧ placeWords <:+: e.message

variable {place : Text} {f : ScriptFunction} {e : Failure}

theorem callFunction_of_speaksOfPlaces (failed : f.call = .error e) (speaks : SpeaksOfPlaces e) :
    callFunction place f = .error (collision place) := by
  have known : (e.kind == "TypeError" && occursIn "positional argument" e.message) = true := by
    rw [Bool.and_eq_true, beq_iff_eq, occursIn_iff]
    exact speaks
  rw [callFunction, failed]
  simp only [known, if_true]
  rfl

theorem callFunction_of_other (failed : f.call = .error e) (other : ¬ SpeaksOfPlaces e) :
    callFunction place f = .error e := by
  have unknown : ¬ (e.kind == "TypeError" && occursIn "positional argument" e.message) = true := by
    rw [Bool.and_eq_true, beq_iff_eq, occursIn_iff]
    exact other
  rw [callFunction, failed]
  simp only [unknown, Bool.false_eq_true, if_false]

theorem callFunction_of_ok {v : Defined} (called : f.call = .ok v) :
    callFunction place f = .ok v := by
  rw [callFunction, called]

theorem speaksOfPlaces_missing (operation : String) (names : List Text) :
    SpeaksOfPlaces (.call (.missing operation names)) := by
  refine ⟨rfl, ?_⟩
  have spelled : placeWords = ofString "positional" ++ ofString " argument" := by decide
  change placeWords <:+: ofString (CallFault.missingText operation "positional" names)
  rw [CallFault.missingText, spelled]
  simp only [ofString_append]
  refine ⟨ofString operation ++ ofString "() missing " ++ ofString (toString names.length) ++
    ofString " required ", ofString (CallFault.plural names.length) ++ ofString ": " ++
    ofString (CallFault.listing names), ?_⟩
  simp only [List.append_assoc]

theorem not_speaksOfPlaces_missingNamed {s : Signature} (unspaced : s.Unspaced) :
    ¬ SpeaksOfPlaces (.call (.missingNamed s.operation s.requiredNamed)) := by
  rintro ⟨-, words⟩
  exact (CallFault.plain_missingNamed unspaced.operation unspaced.named).not_placeWords words

theorem not_speaksOfPlaces_collision (place : Text) : ¬ SpeaksOfPlaces (collision place) := by
  rintro ⟨kind, -⟩
  exact absurd kind (show "WorkflowLoadError" ≠ "TypeError" by decide)

/-! ### Scripts -/

variable {settings : Settings} {t : FileTree} {path full : Path} {extra : List Text} {v : Defined}

theorem make_ne_collision {name triggers : Value} {jobs : List Job} :
    Workflow.make settings name jobs triggers extra ≠ .error (collision place) := by
  intro failed
  obtain ⟨before, j, -, rejects⟩ := Workflow.make_eq_error.mp failed
  unfold collision at rejects
  cases rejects

/-- What goes wrong after the call is never reported as a collision. -/
theorem script_ne_collision (found : ScriptAt t path full v) :
    script settings t path extra ≠ .error (collision place) := by
  obtain ⟨globals, here, executed, found⟩ := found
  rw [script, here, ok_bind, executed, ok_bind, found, ok_bind]
  cases v with
  | workflow w =>
    dsimp only
    split
    next => simp
    next => exact make_ne_collision
  | jobs js => exact make_ne_collision
  | other => simp [collision]

/-- The script at the path defines the function by the name that is asked for. -/
structure Runs (t : FileTree) (path full : Path) (f : ScriptFunction) : Prop where
  resolved : resolved t path = .ok full
  executed : ∃ globals, execute t full = .ok globals ∧ globals.get? "workflow" = some (.function f)

theorem Runs.scriptAt (runs : Runs t path full f) (called : callFunction full.text f = .ok v) :
    ScriptAt t path full v := by
  obtain ⟨here, globals, executed, isFunction⟩ := runs
  refine ⟨globals, here, executed, ?_⟩
  rw [defined, isFunction]
  exact called

theorem Runs.script_of_error (runs : Runs t path full f)
    (called : callFunction full.text f = .error e) : script settings t path extra = .error e := by
  obtain ⟨here, globals, executed, isFunction⟩ := runs
  have failed : defined full.text globals = .error e := by
    rw [defined, isFunction]
    exact called
  rw [script, here, ok_bind, executed, ok_bind, failed]
  rfl

/-- Which functions are taken for others of their name: those that have to be given something by
place, and those that can be called and fail with the words of a complaint about that. -/
inductive Blamed (place : Text) (f : ScriptFunction) : Prop where
  | required : f.signature.required ≠ [] → Blamed place f
  | failed {e : Failure} : f.signature.Free → f.body = .error e →
      SpeaksOfPlaces e ∨ e = collision place → Blamed place f

/-- Where a parameter by name comes with one by place, and the function fails with other words, the
blame is where it belongs. -/
theorem blamed_iff_not_free (accompanied : f.signature.requiredNamed ≠ [] → f.signature.required ≠ [])
    (other : ∀ e, f.body = .error e → ¬ SpeaksOfPlaces e ∧ e ≠ collision place) :
    Blamed place f ↔ ¬ f.signature.Free := by
  constructor
  · rintro (required | ⟨-, failed, speaks | same⟩) free
    · exact required free.placed
    · exact (other _ failed).1 speaks
    · exact (other _ failed).2 same
  · intro needs
    apply Blamed.required
    intro placed
    apply needs
    refine ⟨placed, ?_⟩
    by_contra named
    exact accompanied named placed

theorem Runs.script_of_required (runs : Runs t path full f) (required : f.signature.required ≠ []) :
    script settings t path extra = .error (collision full.text) := by
  apply runs.script_of_error
  exact callFunction_of_speaksOfPlaces (ScriptFunction.call_of_required required)
    (speaksOfPlaces_missing _ _)

theorem Runs.script_of_requiredNamed (runs : Runs t path full f) (unspaced : f.signature.Unspaced)
    (placed : f.signature.required = []) (named : f.signature.requiredNamed ≠ []) :
    script settings t path extra =
      .error (.call (.missingNamed f.signature.operation f.signature.requiredNamed)) := by
  apply runs.script_of_error
  exact callFunction_of_other (ScriptFunction.call_of_requiredNamed placed named)
    (not_speaksOfPlaces_missingNamed unspaced)

/-- A function without such parameters is called, and fails as it fails on its own, unless it
complains about parameters by place. -/
theorem Runs.script_of_failure (runs : Runs t path full f) (free : f.signature.Free)
    (failed : f.body = .error e) :
    (SpeaksOfPlaces e → script settings t path extra = .error (collision full.text)) ∧
      (¬ SpeaksOfPlaces e → script settings t path extra = .error e) := by
  have called := (ScriptFunction.call_of_free free).trans failed
  constructor
  · intro speaks
    exact runs.script_of_error (callFunction_of_speaksOfPlaces called speaks)
  · intro other
    exact runs.script_of_error (callFunction_of_other called other)

theorem Runs.script_eq_collision_iff (runs : Runs t path full f) (unspaced : f.signature.Unspaced) :
    script settings t path extra = .error (collision full.text) ↔ Blamed full.text f := by
  constructor
  · intro blamed
    -- the cases are in the order in which a call is checked: by place, by name, then the body
    by_cases required : f.signature.required = []
    · by_cases named : f.signature.requiredNamed = []
      · have free : f.signature.Free := ⟨required, named⟩
        cases ran : f.body with
        | ok v =>
          have called := (ScriptFunction.call_of_free free).trans ran
          exact absurd blamed (script_ne_collision (runs.scriptAt (callFunction_of_ok called)))
        | error e =>
          apply Blamed.failed free ran
          by_cases speaks : SpeaksOfPlaces e
          · exact .inl speaks
          · rw [(runs.script_of_failure free ran).2 speaks] at blamed
            exact .inr (Except.error.inj blamed)
      · rw [runs.script_of_requiredNamed unspaced required named, collision] at blamed
        cases blamed
    · exact .required required
  · rintro (required | ⟨free, failed, speaks | same⟩)
    · exact runs.script_of_required required
    · exact (runs.script_of_failure free failed).1 speaks
    · subst same
      exact (runs.script_of_failure free failed).2 (not_speaksOfPlaces_collision full.text)

/-- Which calls of a function are reported as a collision of names, and what comes of the others: a
complaint that parameters by name are missing, the failure of the function as it is, or what the
function gives. -/
theorem script_blames (settings : Settings) (t : FileTree) (path full : Path) (extra : List Text)
    (f : ScriptFunction) (runs : Runs t path full f) (unspaced : f.signature.Unspaced) :
    (script settings t path extra = .error (collision full.text) ↔ Blamed full.text f) ∧
    ((f.signature.requiredNamed ≠ [] → f.signature.required ≠ []) →
      (∀ e, f.body = .error e → ¬ SpeaksOfPlaces e ∧ e ≠ collision full.text) →
      (script settings t path extra = .error (collision full.text) ↔ ¬ f.signature.Free)) ∧
    (f.signature.required = [] → f.signature.requiredNamed ≠ [] → script settings t path extra =
      .error (.call (.missingNamed f.signature.operation f.signature.requiredNamed))) ∧
    (f.signature.Free → ∀ e, f.body = .error e → ¬ SpeaksOfPlaces e →
      script settings t path extra = .error e) ∧
    (f.signature.Free → ∀ v, f.body = .ok v → ScriptAt t path full v) := by
  refine ⟨runs.script_eq_collision_iff unspaced, ?_, ?_, ?_, ?_⟩
  · intro accompanied other
    exact (runs.script_eq_collision_iff unspaced).trans (blamed_iff_not_free accompanied other)
  · intro placed named
    exact runs.script_of_requiredNamed unspaced placed named
  · intro free e failed other
    exact (runs.script_of_failure free failed).2 other
  · intro free v done
    exact runs.scriptAt (callFunction_of_ok ((ScriptFunction.call_of_free free).trans done))

/-- A directory with a script that defines a function. -/
def calling (f : ScriptFunction) : FileTree where
  entries := [([Text.ofString "w.py"], .script (.ok [("workflow", .function f)]))]

theorem runs_calling (f : ScriptFunction) :
    Runs (calling f) (.ofText "w.py") (.ofText "/w.py") f :=
  ⟨rfl, _, rfl, rfl⟩

/-- A function with a parameter of each kind. -/
def needing : ScriptFunction where
  signature := { operation := "workflow", required := ["x"], requiredNamed := ["k"] }
  body := .ok .other

theorem needing_blamed : script {} (calling needing) (.ofText "w.py") [] =
    .error (collision "/w.py") := by
  have unspaced : needing.signature.Unspaced := ⟨by decide, by decide⟩
  exact (script_blames {} (calling needing) (.ofText "w.py") (.ofText "/w.py") [] needing
    (runs_calling needing) unspaced).1.mpr (.required (by decide))

/-- A function with a parameter that has to be given by name. -/
def byName : ScriptFunction where
  signature := { operation := "workflow", requiredNamed := ["k"] }
  body := .ok .other

/-- A failure of another call than that of the function. -/
def elsewhere : Failure := .raised (.type "f() takes 1 positional argument but 2 were given")

def failing : ScriptFunction where
  signature := { operation := "workflow" }
  body := .error elsewhere

/-- The function that has to be given something is not blamed, and the one that has not is. -/
theorem collisions_misjudged :
    (¬ byName.signature.Free ∧ script {} (calling byName) (.ofText "w.py") [] ≠
      .error (collision "/w.py")) ∧
    failing.signature.Free ∧ failing.body = .error elsewhere ∧
      script {} (calling failing) (.ofText "w.py") [] = .error (collision "/w.py") := by
  have unspaced : byName.signature.Unspaced := ⟨by decide, by decide⟩
  have free : failing.signature.Free := ⟨rfl, rfl⟩
  refine ⟨⟨?_, ?_⟩, free, rfl, ?_⟩
  · intro free
    exact absurd free.named (by decide)
  · rw [(runs_calling byName).script_of_requiredNamed unspaced rfl (by decide), collision]
    simp
  · apply ((runs_calling failing).script_of_failure free rfl).1
    exact ⟨rfl, occursIn_iff.mp (by decide)⟩

end Load

end JobMatrix
