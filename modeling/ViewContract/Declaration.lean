/-
ViewContract.Declaration — what a view expects of one variable.

Both notations, parameter lists and doc comments, are read into declarations.
A declaration that has passed `Declaration.validate` has a usable name, and a
default only if the variable is not required.
-/
import ViewContract.TypeRef

namespace ViewContract

open Text

/-! ## 1. Literals -/

/-- The defaults that can be written into a template. -/
inductive Literal where
  | null
  | int (value : Int)
  | float (value : Number.Binary64)
  | string (value : Text)
  deriving DecidableEq, Repr

/-- A double as a literal, which must be finite. -/
def Literal.ofDouble (value : Number.Binary64) : Except ModelFault Literal :=
  if value.isFinite then .ok (.float value) else .error (.notFinite value)

/-! ## 2. Declarations -/

/-- One expected variable. A variable that is not required and has no default
falls back to null. -/
structure Declaration where
  name : Text
  required : Bool := true
  type : Option TypeRef := none
  default : Option Literal := none
  nullable : Bool := false
  deriving DecidableEq, Repr

/-- The words that the template language keeps for itself. -/
def reservedWords : List String :=
  ["and", "or", "not", "in", "is", "if", "else", "true", "false", "none", "True", "False", "None"]

/-- Whether a text is a word of the template language. -/
def isReserved (name : Text) : Bool :=
  reservedWords.any fun word => word.toList = name

/-- A name that can be declared: an identifier that is not reserved. -/
def checkName (name : Text) : Except ModelFault Unit :=
  if !uptoLineFeed isIdentifier name then .error (.invalidName name)
  else if isReserved name then .error (.reservedName name)
  else .ok ()

/-- A declaration, if its name can be declared and its default is optional. -/
def Declaration.validate (d : Declaration) : Except ModelFault Declaration := do
  checkName d.name
  if d.default.isSome && d.required then .error (.requiredWithDefault d.name) else .ok d

/-- The first name that is declared a second time. -/
def firstDuplicate? : List Text → List Declaration → Option Text
  | _, [] => none
  | seen, d :: rest =>
    if d.name ∈ seen then some d.name else firstDuplicate? (d.name :: seen) rest

end ViewContract
