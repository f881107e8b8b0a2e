/-
ViewContract.Value.Check — why a check of a variable fails.

These are the faults that a template reports when it is rendered with values
it does not expect.
-/
import ViewContract.Text.Basic
import ViewContract.Text.Lowercase
import ViewContract.Text.Shown

namespace ViewContract

open Text

/-- Why a check of a variable fails. -/
inductive CheckFault where
  /-- The variable is missing or null. -/
  | missing (name : Text)
  /-- The variable is of another kind. -/
  | wrongKind (name expected actual : Text)
  /-- The variable is not an instance of a class. -/
  | wrongClass (name path : Text)
  deriving DecidableEq, Repr

/-- Whether the article before a word is `an`: before a vowel, in either case, and
before no word at all. -/
def takesAn (word : Text) : Bool :=
  match lower (word.take 1) with
  | [] => true
  | [c] => "aeiou".toList.contains c
  | _ => false

/-- The wording of a failed check. -/
def CheckFault.message : CheckFault → String
  | .missing name => s!"View expects ${asString name} variable to be defined"
  | .wrongKind name expected actual =>
    let article := if takesAn expected then "an" else "a"
    s!"View expects ${asString name} variable to be {article} {asString expected} instead of " ++
      asString actual
  | .wrongClass name path =>
    s!"View expects ${asString name} variable to be an instance of {asString path}"

end ViewContract
