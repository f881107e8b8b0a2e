/-
ViewContract.Entry — declarations that both notations can say.

A parameter list and a doc comment have a part in common: one type, a name, and a default that
is null, an integer or a text. An entry is such a declaration, and it is written in either
notation; a text is quoted in a parameter list and stands as it is in a doc comment.
-/
import ViewContract.Docblock.Declarations
import ViewContract.Signature.Written

namespace ViewContract

open Text

/-! ## 1. One declaration in either notation -/

/-- A parameter: a type, a variable and the text of a default. -/
def Signature.parameterText (type name : Text) (default : Option Text) : Text :=
  type ++ " $".toList ++ name ++ default.elim [] (" = ".toList ++ ·)

theorem Signature.parameterText_eq (type name : Text) (default : Option Text) :
    parameterText type name default = type ++ [' ', '$'] ++ name ++
      default.elim [] ([' ', '=', ' '] ++ ·) := by
  have hdollar : " $".toList = [' ', '$'] := by simp
  have hequals : " = ".toList = [' ', '=', ' '] := by simp
  rw [parameterText, hdollar, hequals]

/-- A line of a doc comment: a type, a variable and the text of a default marker. -/
def Docblock.lineText (type name : Text) (default : Option Text) : Text :=
  "@param ".toList ++ type ++ " $".toList ++ name ++
    default.elim [] (fun value => " (default: ".toList ++ value ++ [')'])

/-! ## 2. Defaults -/

namespace Entry

/-- A default that both notations can give. An integer is its sign and its magnitude, since
zero can be written with a minus. -/
inductive Default where
  | null
  | int (negative : Bool) (magnitude : Nat)
  | text (value : Text)
  deriving DecidableEq, Repr

namespace Default

/-- The literal that a default stands for. -/
def literal : Default → Literal
  | .null => .null
  | .int negative magnitude => .int (if negative then -magnitude else magnitude)
  | .text value => .string value

/-- The lexemes of a default in a parameter list. -/
def lexemes : Default → List Signature.Lexeme
  | .null => [⟨.name, "null".toList⟩]
  | .int negative magnitude =>
    (if negative then [.mark '-'] else []) ++ [⟨.number, Nat.toDigits 10 magnitude⟩]
  | .text value => [⟨.string, quoted value⟩]

/-- A default as a parameter list has it. -/
def quotedText (default : Default) : Text :=
  default.lexemes.flatMap (·.text)

/-- A default as a doc comment has it. -/
def rawText : Default → Text
  | .null => "null".toList
  | .int negative magnitude => (if negative then ['-'] else []) ++ Nat.toDigits 10 magnitude
  | .text value => value

/-- A default that both notations can give to a variable of a type: null to any, an integer
within the limit of digits, and a text that ends no marker and no line, has no blanks to lose
at its ends, and does not read as null. -/
def Fits (type : Text) : Default → Prop
  | .null => True
  | .int _ magnitude =>
    type = Kind.int.name.toList ∧ Number.decimalLength magnitude ≤ Number.digitLimit
  | .text value =>
    type = Kind.string.name.toList ∧ ')' ∉ value ∧ (∀ c ∈ value, isLineBreak c = false) ∧
      trim value = value ∧ lower value ≠ "null".toList

instance (type : Text) (default : Default) : Decidable (default.Fits type) :=
  match default with
  | .null => isTrue trivial
  | .int _ magnitude =>
    inferInstanceAs (Decidable (type = Kind.int.name.toList ∧
      Number.decimalLength magnitude ≤ Number.digitLimit))
  | .text value =>
    -- over the text, not over all characters
    haveI := List.decidableBAll (fun c => isLineBreak c = false) value
    inferInstanceAs (Decidable (type = Kind.string.name.toList ∧ ')' ∉ value ∧
      (∀ c ∈ value, isLineBreak c = false) ∧ trim value = value ∧ lower value ≠ "null".toList))

end Default

end Entry

/-! ## 3. Entries -/

/-- A declaration that both notations can say. -/
structure Entry where
  nullable : Bool := false
  type : Text
  name : Text
  default : Option Entry.Default := none
  deriving DecidableEq, Repr

namespace Entry

/-- The type with its question mark. -/
def typeText (e : Entry) : Text :=
  (if e.nullable then ['?'] else []) ++ e.type

/-- An entry as a parameter. -/
def parameter (e : Entry) : Signature.Parameter where
  nullable := e.nullable
  type := some e.type
  name := e.name
  default := e.default.map Default.lexemes

/-- The declaration that an entry stands for. -/
def declaration (e : Entry) : Declaration :=
  e.parameter.declaration (e.default.map Default.literal)

/-- The text of an entry in a parameter list. -/
def parameterText (e : Entry) : Text :=
  Signature.parameterText e.typeText e.name (e.default.map Default.quotedText)

/-- The text of an entry in a doc comment. -/
def lineText (e : Entry) : Text :=
  Docblock.lineText e.typeText e.name (e.default.map Default.rawText)

/-- A type that both notations read alike: the name of a kind, or a class name that is no name
of a kind, no pseudo-type and not null in lower case. -/
def SharedType (type : Text) : Prop :=
  (Kind.ofName? type).isSome = true ∨
    isClassName type = true ∧ Docblock.kindOfName? (lower type) = none ∧
      Docblock.isPseudoType (lower type) = false ∧ lower type ≠ "null".toList

instance (type : Text) : Decidable (SharedType type) :=
  inferInstanceAs (Decidable ((Kind.ofName? type).isSome = true ∨ isClassName type = true ∧
    Docblock.kindOfName? (lower type) = none ∧ Docblock.isPseudoType (lower type) = false ∧
    lower type ≠ "null".toList))

/-- An entry that both notations can say. Null is only admitted with a default, since a doc
comment takes a type that admits null for an optional variable. -/
structure WellFormed (e : Entry) : Prop where
  name : isIdentifier e.name = true
  notReserved : isReserved e.name = false
  type : SharedType e.type
  nullable : e.nullable = true → e.default.isSome = true
  default : ∀ d, e.default = some d → d.Fits e.type

instance (e : Entry) : Decidable e.WellFormed :=
  decidable_of_iff
    (isIdentifier e.name = true ∧ isReserved e.name = false ∧ SharedType e.type ∧
      (e.nullable = true → e.default.isSome = true) ∧ ∀ d ∈ e.default, d.Fits e.type)
    ⟨fun ⟨name, notReserved, type, nullable, default⟩ =>
        ⟨name, notReserved, type, nullable, default⟩,
      fun h => ⟨h.name, h.notReserved, h.type, h.nullable, h.default⟩⟩

/-- Entries as a parameter list, with a comma and perhaps blanks between them. -/
def listText (separator : Text) (es : List Entry) : Text :=
  separator.intercalate (es.map parameterText)

/-- Entries as a doc comment, one on each line. -/
def blockText (es : List Entry) : Text :=
  ['\n'].intercalate (es.map lineText)

end Entry

end ViewContract
