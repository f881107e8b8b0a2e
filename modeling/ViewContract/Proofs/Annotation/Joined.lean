/-
ViewContract.Proofs.Annotation.Joined — bodies put together.

A body that goes on with another of its notation declares what the first and then the second
declares. Nothing is read across the seam, provided that the seam is where one: a parameter list
without a parameter, or with a comma behind its last one, leaves no room for a further comma, and
lines in front of the first tag of a doc comment would go on with the last tag before them.

  §1 bodies that can be put together (`Form.Joins`).
  §2 what they declare (`read_joined`).
-/
import ViewContract.Proofs.Docblock.Tag
import ViewContract.Proofs.Signature.Grammar

namespace ViewContract

open Text

/-! ## 1. Bodies that can be put together -/

/-- The character between two bodies. -/
def Form.separator : Form → Char
  | .expression => ','
  | .block => '\n'

/-- The first body of a parameter list has a token, and its last one is no comma; of the second
body of a doc comment the first line that says something begins a tag. -/
def Form.Joins : Form → Text → Text → Prop
  | .expression, body, _ => ∃ tokens last, Signature.tokenize body = .ok tokens ∧
      tokens.getLast? = some last ∧ last.lexeme ≠ .mark ','
  | .block, _, rest => ∀ first, (Docblock.written (lines rest)).head? = some first →
      (Docblock.openTag? first).isSome = true

/-! ## 2. Their declarations -/

namespace Annotation

/-- **Both notations are compositional**: two accepted bodies that can be put together and have no
name in common declare what the first and then what the second declares. -/
theorem read_joined {form : Form} {body rest : Text} {ds ds' : List Declaration}
    (h : (read form body).value = .ok ds) (h' : (read form rest).value = .ok ds')
    (hdisjoint : ∀ d ∈ ds, ∀ d' ∈ ds', d.name ≠ d'.name) (hjoins : form.Joins body rest) :
    (read form (body ++ form.separator :: rest)).value = .ok (ds ++ ds') := by
  cases form with
  | expression =>
    obtain ⟨tokens, last, htokens, hlast, hcomma⟩ := hjoins
    exact Signature.declarations_comma h h' hdisjoint htokens hlast hcomma
  | block => exact Docblock.declarations_join h h' hjoins hdisjoint

/-- A typed variable. -/
def typedVariable : List Declaration :=
  [{ name := "a".toList, type := some (.primitive .int) }]

/-- A variable that may be left out. -/
def optionalVariable : List Declaration :=
  [{ name := "b".toList, required := false, default := some .null }]

/-- Both variables, in either notation. -/
theorem read_joined_of_optionalVariable :
    (read .expression ("int $a".toList ++ ',' :: "$b = null,".toList)).value
        = .ok (typedVariable ++ optionalVariable) ∧
      (read .block
          ("* @var int $a the\n first".toList ++ '\n' :: "\n* @var $b\n(default: null)".toList)).value
        = .ok (typedVariable ++ optionalVariable) := by
  have hdisjoint : ∀ d ∈ typedVariable, ∀ d' ∈ optionalVariable, d.name ≠ d'.name := by
    decide
  constructor
  · have hjoins : Form.expression.Joins "int $a".toList "$b = null,".toList :=
      ⟨[⟨.name, "int".toList, 0⟩, ⟨.variableName, "$a".toList, 4⟩], ⟨.variableName, "$a".toList, 4⟩,
        by decide +kernel, rfl, by decide⟩
    exact read_joined (by decide +kernel) (by decide +kernel) hdisjoint hjoins
  · have hwritten : (Docblock.written (lines "\n* @var $b\n(default: null)".toList)).head?
        = some "@var $b".toList := by decide +kernel
    have hjoins : Form.block.Joins "* @var int $a the\n first".toList
        "\n* @var $b\n(default: null)".toList := by
      intro first hfirst
      obtain rfl := Option.some.inj (hwritten.symm.trans hfirst)
      decide +kernel
    exact read_joined (by decide +kernel) (by decide +kernel) hdisjoint hjoins

end Annotation

end ViewContract
