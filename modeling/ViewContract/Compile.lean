/-
ViewContract.Compile — a template with its annotations compiled.

Each annotation is read by the grammar of its form, its declarations become
guards, and the guards take its place. With checks disabled the annotations
are removed unread. The first annotation that fails ends the compilation: a
template is compiled as a whole or not at all.
-/
import ViewContract.Annotation.Extract
import ViewContract.Docblock.Declarations
import ViewContract.Guard.Basic
import ViewContract.Settings
import ViewContract.Signature.Parameter
import ViewContract.Splice

namespace ViewContract

open Text (shownString)

/-! ## 1. Faults -/

/-- Why an annotation is refused, and which one. -/
inductive UsageFault where
  | grammar (cause : GrammarFault) (text : Text) (offset : Nat)
  | default (cause : DefaultFault) (text : Text) (offset : Nat)
  deriving DecidableEq, Repr

namespace UsageFault

/-- The text of the annotation. -/
def text : UsageFault → Text
  | .grammar _ text _ | .default _ text _ => text

/-- Where the annotation begins. -/
def offset : UsageFault → Nat
  | .grammar _ _ offset | .default _ _ offset => offset

/-- The wording of the cause. -/
def cause : UsageFault → String
  | .grammar cause _ _ => cause.message
  | .default cause _ _ => cause.message

/-- The wording of a refused annotation. -/
def message (fault : UsageFault) : String :=
  s!"Invalid @expects usage ({fault.cause}) in {shownString fault.text}"

end UsageFault

/-- Why a template is not compiled. -/
inductive CompileError where
  | usage (fault : UsageFault)
  /-- A number in an annotation is out of range. -/
  | range (fault : RangeFault)
  /-- Two replacements overlap. -/
  | overlap (fault : Overlap)
  deriving DecidableEq, Repr

/-- The wording of a compile error. -/
def CompileError.message : CompileError → String
  | .usage e => e.message
  | .range e => e.message
  | .overlap e => e.message

/-! ## 2. One annotation -/

namespace Annotation

/-- The declarations of a body by the grammar of its form. -/
def read (form : Form) (body : Text) : Logged (Except BodyError (List Declaration)) :=
  match form with
  | .expression => { value := Signature.declarations body }
  | .block => Docblock.declarations body

/-- The error of a body as an error of its annotation. -/
def blame (a : Annotation) : BodyError → CompileError
  | .grammar fault => .usage (.grammar fault a.text a.start)
  | .default fault => .usage (.default fault a.text a.start)
  | .range fault => .range fault

/-- The declarations of an annotation. -/
def declarations (a : Annotation) : Logged (Except CompileError (List Declaration)) :=
  let reading := read a.form a.body
  { log := reading.log, value := reading.value.mapError a.blame }

/-- The guards of an annotation as template text. -/
def code (δ : Delimiters) (a : Annotation) : Except CompileError Text := do
  let ds ← a.declarations.value
  (guardText δ ds).mapError .range

/-- What is noted while an annotation is read. -/
def events (a : Annotation) : List Event :=
  let reading := a.declarations
  match reading.value with
  | .ok ds => reading.log ++ [.declared a.start ds.length]
  | .error _ => reading.log

/-- The declarations of each of several annotations, up to the first that fails. -/
def declarationsOf : List Annotation → Logged (Except CompileError (List (List Declaration)))
  | [] => { value := .ok [] }
  | a :: rest =>
    let first := a.declarations
    match first.value with
    | .error e => { log := first.log, value := .error e }
    | .ok ds =>
      let others := declarationsOf rest
      { log := first.log ++ others.log, value := (ds :: ·) <$> others.value }

end Annotation

/-! ## 3. Templates -/

/-- The annotations of a template with their guards as replacements. -/
def guardReplacements (δ : Delimiters) : List Annotation → Except CompileError (List Replacement)
  | [] => .ok []
  | a :: rest => do
    let code ← a.code δ
    let replacements ← guardReplacements δ rest
    pure ({ start := a.start, stop := a.stop, text := some code } :: replacements)

/-- What is noted while annotations are compiled, up to the first that fails. -/
def guardEvents (δ : Delimiters) : List Annotation → List Event
  | [] => []
  | a :: rest =>
    match a.code δ with
    | .ok _ => a.events ++ guardEvents δ rest
    | .error _ => a.events

/-- Annotations as spans to remove. -/
def removals (annotations : List Annotation) : List Replacement :=
  annotations.map fun a => { start := a.start, stop := a.stop }

/-- A template with its annotations compiled, or removed if checks are disabled. -/
def compile (settings : Settings) (δ : Delimiters) (source : Text) :
    Logged (Except CompileError Text) :=
  let found := Annotation.extract source
  let annotations := found.value
  if annotations.isEmpty then { log := found.log, value := .ok source }
  else
    let log := found.log ++ [.found annotations.length]
    if settings.enabled then
      { log := log ++ guardEvents δ annotations
        value := do
          let replacements ← guardReplacements δ annotations
          (splice source replacements).mapError .overlap }
    else
      { log := log ++ [.stripped annotations.length]
        value := (splice source (removals annotations)).mapError .overlap }

end ViewContract
