/-
ViewContract.Annotation.Basic — occurrences of annotations in a template.

An annotation is a one-line parameter list in parentheses or a block with a
doc comment; it has a body and a span of the template.
-/
import ViewContract.Text.Basic

namespace ViewContract

/-- The two forms of annotation. -/
inductive Form where
  | expression
  | block
  deriving DecidableEq, Repr

/-- The name of a form. -/
def Form.name : Form → String
  | .expression => "expression"
  | .block => "block"

/-- One occurrence: its form, its body, its span from `start` up to `stop`, and the
text of that span. -/
structure Annotation where
  form : Form
  body : Text
  start : Nat
  stop : Nat
  text : Text
  deriving DecidableEq, Repr

/-- Whether the spans of two annotations have a character in common. -/
def Annotation.overlaps (a b : Annotation) : Bool :=
  a.start < b.stop && b.start < a.stop

end ViewContract
