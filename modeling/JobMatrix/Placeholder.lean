import JobMatrix.Instance
import JobMatrix.Text.Word

set_option autoImplicit false

/-!
Placeholders in texts: an expression between `$` with two opening braces and two closing ones.
Only those that name a property of the matrix, the runner or the environment are replaced; a
property that is not there counts as empty. All other text stays as it is.
-/

namespace JobMatrix

/-- Contexts by name, each with its properties. -/
abbrev Context := Entries (Entries Text)

/-- What is known when an instance is planned. -/
def Instance.context (i : Instance) (env : Entries Text) : Except Failure Context := do
  return [("matrix", i.cells), ("runner", [("os", ← i.os)]), ("env", env)]

/-- A placeholder as found in a text: all its characters, and the expression without the blanks
around it. -/
structure Placeholder where
  source : Text
  expression : Text
  deriving DecidableEq, Repr

namespace Placeholder

/-- What follows two closing braces, possibly after blanks. -/
def afterClosing? (t : Text) : Option Text :=
  match t.dropWhile Text.isBlank with
  | .char '\x7d' :: .char '\x7d' :: rest => some rest
  | _ => none

/-- The shortest expression that is followed by closing braces, and what comes after these. An
expression does not go over a line break. -/
def expression? : Text → Option (Text × Text)
  | [] => none
  | c :: cs =>
    match afterClosing? (c :: cs) with
    | some rest => some ([], rest)
    | none =>
      if c == .char '\n' then none
      else (expression? cs).map fun (e, rest) => (c :: e, rest)

def atStart? (t : Text) : Option Placeholder :=
  match t with
  | .char '$' :: .char '\x7b' :: .char '\x7b' :: inner =>
    (expression? (inner.dropWhile Text.isBlank)).map fun (e, rest) =>
      ⟨t.take (t.length - rest.length), e⟩
  | _ => none

def isProperty : Text → Bool
  | .char c :: rest =>
    (c.isAlpha || c == '_') && rest.all fun d => Text.isWord d || d == .char '-'
  | _ => false

/-- The contexts whose properties are known. -/
def contexts : List Text := ["matrix", "runner", "env"].map Text.ofString

/-- The context and the property that an expression names, when it does nothing else. -/
def reference? (expression : Text) : Option (Text × Text) :=
  match expression.span (· != .char '.') with
  | (head, _ :: property) =>
    if contexts.contains head && isProperty property then some (head, property) else none
  | _ => none

def lookup (context : Context) (head property : Text) : Text :=
  (((context.get? head).getD []).get? property).getD []

def replacement (context : Context) (p : Placeholder) : Text :=
  match reference? p.expression with
  | some (head, property) => lookup context head property
  | none => p.source

/-- Replaces the placeholders of a text, from left to right; `skip` is the number of characters
that belong to a placeholder that has been replaced. -/
def renderFrom (context : Context) : Nat → Text → Text
  | _, [] => []
  | skip + 1, _ :: cs => renderFrom context skip cs
  | 0, c :: cs =>
    match atStart? (c :: cs) with
    | some p => replacement context p ++ renderFrom context (p.source.length - 1) cs
    | none => c :: renderFrom context 0 cs

end Placeholder

def render (context : Context) (text : Text) : Text := Placeholder.renderFrom context 0 text

/-- A value with its placeholders replaced; it has to be a text. -/
def Value.rendered (context : Context) (v : Value) : Except Failure Value := do
  return .text (render context (← v.readable))

/-- A value with its placeholders replaced; null, which stands for nothing, stays. -/
def Value.renderedIfGiven (context : Context) (v : Value) : Except Failure Value :=
  if v.isNull then .ok v else v.rendered context

/-- Entries with the placeholders in their values replaced. -/
def renderEntries (context : Context) (entries : Entries Text) : Entries Text :=
  entries.map fun e => (e.1, render context e.2)

/-- The step as an instance sees it: its texts are rendered under the environment of the job,
overridden by that of the step. The action stays as it is. -/
def Step.rendered (s : Step) (i : Instance) (jobEnv : Entries Text) : Except Failure Step := do
  let context ← i.context (jobEnv.update s.env)
  return { s with
    name := ← s.name.rendered context
    run := ← s.run.renderedIfGiven context
    inputs := renderEntries context s.inputs
    shell := ← s.shell.renderedIfGiven context
    cwd := ← s.cwd.renderedIfGiven context
    env := renderEntries context s.env }

def Job.renderedSteps (j : Job) (i : Instance) : Except Failure (List Step) :=
  j.steps.mapM fun s => s.rendered i j.env

end JobMatrix
