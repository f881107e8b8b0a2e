/-
ViewContract.Signature.Written — declarations written as a parameter list.

The way back from declarations to text. A parameter is written as lexemes,
which are tokens without a position, and the lexemes of a list may have any
blanks before, between and behind them (`Spaced`). A minus sign is a lexeme
of its own, so blanks may follow it, too.
-/
import ViewContract.Guard.Basic
import ViewContract.Signature.Token

namespace ViewContract

open Text

/-- The type that a class name means: a kind by its exact name, or the class of its path. -/
def TypeRef.ofName (name : Text) : TypeRef :=
  match Kind.ofName? name with
  | some kind => .primitive kind
  | none => .ofClass (normalizePath name)

namespace Signature

/-! ## 1. Lexemes -/

/-- A token apart from its position. -/
structure Lexeme where
  kind : TokenKind
  text : Text
  deriving DecidableEq, Repr

/-- The lexeme that a token is. -/
def Token.lexeme (token : Token) : Lexeme :=
  ⟨token.kind, token.text⟩

namespace Lexeme

/-- A character that is a token on its own. -/
def mark (c : Char) : Lexeme :=
  ⟨.punctuation, [c]⟩

/-- A variable by its name. -/
def ofName (name : Text) : Lexeme :=
  ⟨.variableName, '$' :: name⟩

end Lexeme

/-- A number with an optional sign. -/
def signedLexemes : Text → List Lexeme
  | '-' :: digits => [.mark '-', ⟨.number, digits⟩]
  | '+' :: digits => [.mark '+', ⟨.number, digits⟩]
  | digits => [⟨.number, digits⟩]

/-- Some lexemes with blanks at will before, between and behind them. -/
inductive Spaced : List Lexeme → Text → Prop where
  | nil {blanks : Text} (hblank : ∀ c ∈ blanks, isBlank c = true) : Spaced [] blanks
  | cons {blanks text : Text} {l : Lexeme} {ls : List Lexeme}
      (hblank : ∀ c ∈ blanks, isBlank c = true) (hrest : Spaced ls text) :
      Spaced (l :: ls) (blanks ++ l.text ++ text)

/-! ## 2. Parameters -/

/-- A parameter as it is written: a question mark, a type name, the variable, and the lexemes
of a default. -/
structure Parameter where
  nullable : Bool := false
  type : Option Text := none
  name : Text
  default : Option (List Lexeme) := none

/-- The lexemes of a parameter. -/
def Parameter.lexemes (p : Parameter) : List Lexeme :=
  (if p.nullable then [.mark '?'] else []) ++ p.type.toList.map (⟨.name, ·⟩) ++
    .ofName p.name :: (p.default.map (.mark '=' :: ·)).getD []

/-- The declaration that a parameter says with a default, or without one. -/
def Parameter.declaration (p : Parameter) (default : Option Literal) : Declaration where
  name := p.name
  required := default.isNone
  type := p.type.map TypeRef.ofName
  default := default
  nullable := p.nullable

/-- Parameters with commas between them and, if asked for, one behind the last. -/
def listLexemes (trailing : Bool) : List Parameter → List Lexeme
  | [] => []
  | [p] => p.lexemes ++ if trailing then [.mark ','] else []
  | p :: ps => p.lexemes ++ .mark ',' :: listLexemes trailing ps

end Signature

/-! ## 3. Declarations -/

/-- The text of a type: the name of its kind, or the path of its class. -/
def TypeRef.text : TypeRef → Text
  | .primitive kind => kind.name.toList
  | .ofClass path => path

/-- The lexemes of a literal. -/
def Literal.lexemes : Literal → List Signature.Lexeme
  | .null => [⟨.name, "null".toList⟩]
  | .int n => Signature.signedLexemes (Number.decimalText n)
  | .float x => Signature.signedLexemes x.text
  | .string t => [⟨.string, quoted t⟩]

/-- A declaration as a parameter. -/
def Declaration.parameter (d : Declaration) : Signature.Parameter where
  nullable := d.nullable
  type := d.type.map TypeRef.text
  name := d.name
  default := d.default.map Literal.lexemes

/-- A type that a parameter can be written with: a class has a dotted path that is not the name
of a kind. -/
def TypeRef.Listable : TypeRef → Prop
  | .primitive _ => True
  | .ofClass path => isDottedPath path = true ∧ Kind.ofName? path = none

/-- A default that a parameter can be written with: null, a text, or an integer within the limit
of digits. -/
def Literal.Listable : Literal → Prop
  | .null | .string _ => True
  | .int n => Number.decimalLength n.natAbs ≤ Number.digitLimit
  | .float _ => False

/-- A declaration that a parameter says completely: it is required exactly if it has no default,
and admits null only with a type. -/
structure Declaration.Listable (d : Declaration) : Prop where
  name : isIdentifier d.name = true
  notReserved : isReserved d.name = false
  type : ∀ type, d.type = some type → type.Listable
  untyped : d.type = none → d.nullable = false
  required : d.required = d.default.isNone
  default : ∀ l, d.default = some l → l.Listable

instance (type : TypeRef) : Decidable type.Listable :=
  match type with
  | .primitive _ => isTrue trivial
  | .ofClass path =>
    inferInstanceAs (Decidable (isDottedPath path = true ∧ Kind.ofName? path = none))

instance (l : Literal) : Decidable l.Listable :=
  match l with
  | .null | .string _ => isTrue trivial
  | .int n => inferInstanceAs (Decidable (Number.decimalLength n.natAbs ≤ Number.digitLimit))
  | .float _ => isFalse id

instance (d : Declaration) : Decidable d.Listable :=
  decidable_of_iff
    (isIdentifier d.name = true ∧ isReserved d.name = false ∧ (∀ type ∈ d.type, type.Listable) ∧
      (d.type = none → d.nullable = false) ∧ d.required = d.default.isNone ∧
      ∀ l ∈ d.default, l.Listable)
    ⟨fun ⟨name, notReserved, type, untyped, required, default⟩ =>
        ⟨name, notReserved, type, untyped, required, default⟩,
      fun h => ⟨h.name, h.notReserved, h.type, h.untyped, h.required, h.default⟩⟩

end ViewContract
