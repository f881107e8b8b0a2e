/-
ViewContract.Record — records before validation.

A declaration that arrives from outside is a record of optional fields. Reading
it checks the default first, then the fields in order, and last the rule that
ties them together, and reports the first fault.
-/
import ViewContract.Declaration
import ViewContract.Flag

namespace ViewContract.Record

open ViewContract.Text

/-- A tagged record: a type reference or a union member. -/
structure TypeRecord where
  tag : Option Text := none
  type : Option Text := none
  name : Option Text := none

/-- A literal as a tagged record. -/
inductive LiteralRecord where
  | null
  | int (value : Int)
  | float (value : Number.Binary64)
  | string (value : Text)
  /-- A record with a known tag and no value. -/
  | incomplete
  /-- A record with another tag. -/
  | unknown (tag : Text)
  /-- A record without a tag. -/
  | untagged

/-- A declaration with unvalidated parts. -/
structure DeclarationRecord where
  name : Option Text := none
  required : Flag := .bool true
  type : Option TypeRecord := none
  default : Option LiteralRecord := none
  nullable : Flag := .bool false

/-- The tags of type references. -/
def typeTags : List String := ["primitive", "class"]

/-- The tags of union members. -/
def memberTags : List String := ["primitive", "class", "null", "ignored"]

/-- The tags of literals. -/
def literalTags : List String := ["null", "int", "float", "string"]

/-- The value of a field that must be there. -/
def field (value : Option Text) : Except ModelFault Text :=
  value.elim (.error .missingField) .ok

/-- The tag of a record. -/
def TypeRecord.readTag (r : TypeRecord) : Except ModelFault Text :=
  r.tag.elim (.error .missingTag) .ok

/-- The primitive type of a record. -/
def TypeRecord.primitive (r : TypeRecord) : Except ModelFault TypeRef := do
  let name ← field r.type
  (Kind.ofName? name).elim (.error .unknownKind) fun kind => .ok (.primitive kind)

/-- The class of a record. -/
def TypeRecord.ofClass (r : TypeRecord) : Except ModelFault TypeRef := do
  TypeRef.ofPath (← field r.name)

/-- A type reference from a record. -/
def TypeRecord.toTypeRef (r : TypeRecord) : Except ModelFault TypeRef := do
  let tag ← r.readTag
  if tag = "primitive".toList then r.primitive
  else if tag = "class".toList then r.ofClass
  else .error (.unknownTag tag typeTags)

/-- A union member from a record. -/
def TypeRecord.toMember (r : TypeRecord) : Except ModelFault Member := do
  let tag ← r.readTag
  if tag = "primitive".toList then .type <$> r.primitive
  else if tag = "class".toList then .type <$> r.ofClass
  else if tag = "null".toList then pure .null
  else if tag = "ignored".toList then .ignored <$> field r.name
  else .error (.unknownTag tag memberTags)

/-- A literal from a record. -/
def LiteralRecord.toLiteral : LiteralRecord → Except ModelFault Literal
  | .null => .ok .null
  | .int value => .ok (.int value)
  | .float value => Literal.ofDouble value
  | .string value => .ok (.string value)
  | .incomplete => .error .missingField
  | .unknown tag => .error (.unknownTag tag literalTags)
  | .untagged => .error .missingTag

/-- A declaration from a record. -/
def DeclarationRecord.toDeclaration (r : DeclarationRecord) : Except ModelFault Declaration := do
  let default ← r.default.mapM LiteralRecord.toLiteral
  let name ← field r.name
  checkName name
  let required ← r.required.read
  let type ← r.type.mapM TypeRecord.toTypeRef
  let nullable ← r.nullable.read
  Declaration.validate { name, required, type, default, nullable }

end ViewContract.Record
