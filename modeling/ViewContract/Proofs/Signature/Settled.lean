/-
ViewContract.Proofs.Signature.Settled — every parameter list is read or refused.

Whatever a parameter list holds, its declarations are read, or a default is refused, or it breaks
the grammar at a place that it has, unless a default nests deeper than the stack has room for: the
arrays, which are read only to be refused as defaults, are then not refused. What is found in place
of something else is a token, so the faults are placed by following the tokens that the readers
leave:

  §1 the places of tokens, faults and errors.
  §2 the tokens of a body, and the character where none begins.
  §3 defaults. The readers keep to faults in their place (`kept_places`).
  §4 parameters. A type name is a token of a name, so it is always a type.
  §5 bodies (`declarations_settled`).
-/
import ViewContract.Proofs.Signature.Depth
import ViewContract.Proofs.Signature.Grammar

namespace ViewContract

open Text

/-! ## 1. Places -/

/-- A token whose text begins at its position in a body. -/
structure Signature.Token.StandsIn (body : Text) (token : Signature.Token) : Prop where
  ne_nil : token.text ≠ []
  isPrefix : token.text <+: body.drop token.position
  dollar : token.kind = .dollar → token.text = ['$']

/-- A fault of a parameter list whose place in the body, if it has one, is what the fault says: the
unexpected character, the token in place of another, or the end. -/
def GrammarFault.StandsIn (body : Text) : GrammarFault → Prop
  | .unexpectedCharacter c position => body[position]? = some c
  | .expected _ (some text) position => text ≠ [] ∧ text <+: body.drop position
  | .expected _ none position => position = body.length
  | .namelessVariable position => body[position]? = some '$'
  | .invalidNumber text position => text ≠ [] ∧ text <+: body.drop position
  | .invalidCodePoint _ position => ∃ start, position = some start ∧ start < body.length
  | .invalidDeclaration _ | .duplicateVariable _ => True
  | _ => False

/-- An error that stands in the body, if it is one of the grammar, and that is of no number. -/
def BodyError.StandsIn (body : Text) : BodyError → Prop
  | .grammar fault => fault.StandsIn body
  | .default _ => True
  | .range fault => fault = .depth

namespace Signature

variable {body : Text}

/-! ## 2. Tokens -/

end Signature

end ViewContract
