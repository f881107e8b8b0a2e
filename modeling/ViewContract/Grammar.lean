/-
ViewContract.Grammar — why the body of an annotation does not parse.

One fault for each cause, in either notation. A fault in a parameter list has
a position in the body; one in a doc comment names a line instead. A body can
also be grammatical and still have an unusable default, so `BodyError` sums up
the ways in which a body can fail.
-/
import ViewContract.Default

namespace ViewContract

open Text (shownString asString)

/-! ## 1. Faults of the grammar -/

/-- What a parameter list lacks at some place. -/
inductive Expected where
  | variableName
  | typeName
  | comma
  | number
  | className
  | constantName
  | value
  /-- A comma or the bracket that ends an array. -/
  | commaOr (closer : Char)
  deriving DecidableEq, Repr

/-- The wording of what is lacking. -/
def Expected.phrase : Expected → String
  | .variableName => "variable"
  | .typeName => "type name after '?'"
  | .comma => "','"
  | .number => "number after sign"
  | .className => "class name after 'new'"
  | .constantName => "constant name after '::'"
  | .value => "default value"
  | .commaOr closer => s!"',' or '{closer}'"

/-- Why a body does not parse. -/
inductive GrammarFault where
  /-- No token begins with the character. -/
  | unexpectedCharacter (c : Char) (position : Nat)
  /-- Another token, or the end of the body, stands in place of what is expected. -/
  | expected (what : Expected) (found : Option Text) (position : Nat)
  /-- A dollar sign without a name. -/
  | namelessVariable (position : Nat)
  /-- A number token that is no number. -/
  | invalidNumber (text : Text) (position : Nat)
  /-- An escape for a character beyond the last code point. -/
  | invalidCodePoint (escape : Text) (position : Option Nat)
  /-- A type name that is no class path. -/
  | invalidTypeName (name : Text)
  /-- The declaration breaks a rule of the model. -/
  | invalidDeclaration (rule : ModelFault)
  | duplicateVariable (name : Text)
  /-- A closing bracket in a type that matches no opening one. -/
  | unbalancedBracket (bracket : Char) (line : Nat)
  /-- An opening bracket in a type whose closing one is missing. -/
  | unclosedBracket (closer : Char) (line : Nat)
  /-- A union with nothing between two bars. -/
  | emptyMember (type : Text) (line : Nat)
  | invalidMember (member : Text) (line : Nat)
  | emptyTag (tag : Text) (line : Nat)
  /-- A tag whose type is not followed by a variable. -/
  | tagWithoutVariable (tag : Text) (line : Nat)
  deriving DecidableEq, Repr

namespace GrammarFault

/-- Where in the body a fault is, if it is at one place. -/
def position? : GrammarFault → Option Nat
  | .unexpectedCharacter _ position | .expected _ _ position | .namelessVariable position
  | .invalidNumber _ position => some position
  | .invalidCodePoint _ position => position
  | _ => none

/-- The wording of a fault without its position. -/
def cause : GrammarFault → String
  | .unexpectedCharacter c _ => s!"Unexpected character {shownString [c]}"
  | .expected what (some found) _ => s!"Expected {what.phrase}, found {shownString found}"
  | .expected what none _ => s!"Expected {what.phrase}, found end of input"
  | .namelessVariable _ => "Expected variable name after '$'"
  | .invalidNumber text _ => s!"Invalid number {shownString text}"
  | .invalidCodePoint escape _ =>
    s!"Invalid UTF-8 codepoint escape sequence {shownString escape}"
  | .invalidTypeName name => s!"Invalid type name {shownString name}"
  | .invalidDeclaration rule => rule.rule?.getD rule.message
  | .duplicateVariable name => s!"Duplicate variable ${asString name}"
  | .unbalancedBracket bracket line =>
    s!"Unbalanced {shownString [bracket]} in type on line {line}"
  | .unclosedBracket closer line => s!"Unclosed {shownString [closer]} in type on line {line}"
  | .emptyMember type line => s!"Empty member in type {shownString type} on line {line}"
  | .invalidMember member line => s!"Invalid type {shownString member} on line {line}"
  | .emptyTag tag line => s!"@{asString tag} tag on line {line} is empty"
  | .tagWithoutVariable tag line =>
    s!"@{asString tag} tag on line {line} must name a variable ($name)"

/-- The wording of a fault. -/
def message (fault : GrammarFault) : String :=
  match fault.position? with
  | some position => s!"{fault.cause} at position {position}"
  | none => fault.cause

end GrammarFault

/-! ## 2. Faults of a body -/

/-- Why a body yields no declarations. -/
inductive BodyError where
  | grammar (fault : GrammarFault)
  | default (fault : DefaultFault)
  | range (fault : RangeFault)
  deriving DecidableEq, Repr

/-- A default error as an error of the body that holds the default. -/
def DefaultError.inBody : DefaultError → BodyError
  | .fault e => .default e
  | .range e => .range e

/-- Stop with a fault of the grammar. -/
def failGrammar {α : Type} (fault : GrammarFault) : Except BodyError α :=
  .error (.grammar fault)

/-- A declaration that keeps the rules of the model, or the rule it breaks as a
fault of the body. -/
def Declaration.inBody (d : Declaration) : Except BodyError Declaration :=
  d.validate.mapError fun rule => .grammar (.invalidDeclaration rule)

/-- Declarations with distinct names. -/
def distinct (ds : List Declaration) : Except BodyError (List Declaration) :=
  match firstDuplicate? [] ds with
  | some name => failGrammar (.duplicateVariable name)
  | none => .ok ds

end ViewContract
