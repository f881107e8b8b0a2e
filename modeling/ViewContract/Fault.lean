/-
ViewContract.Fault — why a declaration or a default is refused.

Faults are values, one constructor for each cause, and each family has one
function that words it. A model fault belongs to a record that is validated on
its own; a default fault belongs to a default value that no declaration can
carry.
-/
import ViewContract.Text.Shown
import ViewContract.Number.Printed

namespace ViewContract

open Text (shownString asString)

/-! ## 1. Records -/

/-- Why a record is not a declaration, a type reference, a literal or a flag. -/
inductive ModelFault where
  /-- The name is no identifier. -/
  | invalidName (name : Text)
  /-- The name is a word of the template language. -/
  | reservedName (name : Text)
  /-- A required variable has a default. -/
  | requiredWithDefault (name : Text)
  /-- The class path is no dotted sequence of identifiers. -/
  | malformedPath (path : Text)
  /-- The default is an infinity or not a number. -/
  | notFinite (value : Number.Binary64)
  /-- The primitive kind is not one of the four. -/
  | unknownKind
  /-- The record is tagged with none of the expected tags. -/
  | unknownTag (tag : Text) (expected : List String)
  /-- The record has no tag. -/
  | missingTag
  /-- A field has no value. -/
  | missingField
  /-- The text or number is not one of those for true and false. -/
  | notBoolean
  /-- The value is of a kind that never stands for true or false. -/
  | notFlag
  deriving DecidableEq, Repr

/-- The rule that a well-typed record breaks, in words; `none` for a record of
the wrong shape. -/
def ModelFault.rule? : ModelFault → Option String
  | .invalidName name => some s!"{shownString name} is not a valid variable name"
  | .reservedName name => some s!"{shownString name} is a reserved word"
  | .requiredWithDefault name =>
    some s!"${asString name} has a default value and cannot be required"
  | .malformedPath path => some s!"malformed class path {shownString path}"
  | .notFinite value => some s!"float default must be finite, got {asString value.text}"
  | .unknownKind | .unknownTag .. | .missingTag | .missingField | .notBoolean | .notFlag => none

/-- Words in single quotes, separated by commas. -/
def quotedWords (words : List String) : String :=
  ", ".intercalate (words.map fun word => s!"'{word}'")

/-- The wording of a model fault when the record is reported on its own. -/
def ModelFault.message (fault : ModelFault) : String :=
  match fault.rule? with
  | some rule => s!"Value error, {rule}"
  | none =>
    match fault with
    | .unknownKind => "Input should be 'array', 'int', 'float' or 'string'"
    | .unknownTag tag expected =>
      s!"Input tag '{asString tag}' found using 'kind' does not match any of the expected tags: " ++
        quotedWords expected
    | .missingTag => "Unable to extract tag using discriminator 'kind'"
    | .notBoolean => "Input should be a valid boolean, unable to interpret input"
    | .notFlag => "Input should be a valid boolean"
    | _ => "Field required"

/-! ## 2. Defaults -/

/-- Why a value cannot be the default of a variable. -/
inductive DefaultFault where
  | boolean (value : Bool)
  | notFinite (value : Number.Binary64)
  | array
  /-- A constant, or the construction of an object. -/
  | expression (description : Text)
  /-- A value of another kind, shown. -/
  | unsupported (shown : Text)
  /-- The text does not read as the declared kind. -/
  | notOfKind (text : Text) (kind : String)
  deriving DecidableEq, Repr

/-- What may be a default. -/
def supportedDefaults : String :=
  "only null, int, float and string defaults are supported"

/-- The wording of a default fault. -/
def DefaultFault.message : DefaultFault → String
  | .boolean value =>
    "Default value " ++ (if value then "true" else "false") ++ " is a boolean; " ++
      supportedDefaults
  | .notFinite value => s!"Default value {asString value.text} is not a finite number"
  | .array => "Array defaults are not supported; " ++ supportedDefaults
  | .expression description =>
    s!"Default value {asString description} is not a literal; " ++ supportedDefaults
  | .unsupported shown => s!"Unsupported default value {asString shown}"
  | .notOfKind text kind => s!"Default value {shownString text} is not a valid {kind}"

/-! ## 3. Out of range -/

/-- A number that fits neither a text nor a double, or a value that does not fit the stack. -/
inductive RangeFault where
  /-- An integer with too many digits to be written. -/
  | digits
  /-- An integer beyond the doubles. -/
  | overflow
  /-- Arrays or arguments nested deeper than the readers can call each other. -/
  | depth
  deriving DecidableEq, Repr

/-- The wording of a range fault. How the stack is said to be full depends on the call that
finds it so; for arrays in brackets it is that of a comparison. -/
def RangeFault.message : RangeFault → String
  | .digits => ({} : Number.TooManyDigits).message
  | .overflow => "int too large to convert to float"
  | .depth => "maximum recursion depth exceeded in comparison"

end ViewContract
