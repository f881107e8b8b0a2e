/-
ViewContract.TypeRef — the types that a variable can be declared with.

A type is one of four primitive kinds or a class, named by its dotted path. A
union in a doc comment has members that are types, the null marker, or
pseudo-types that are ignored; `TypeRef.ofMembers` says what such a union
amounts to.
-/
import ViewContract.Text.Identifier
import ViewContract.Fault

namespace ViewContract

open Text

/-! ## 1. Kinds -/

/-- The kinds of value that can be told apart without a class. -/
inductive Kind where
  | array
  | int
  | float
  | string
  deriving DecidableEq, Repr

namespace Kind

/-- The name of a kind. -/
def name : Kind → String
  | .array => "array"
  | .int => "int"
  | .float => "float"
  | .string => "string"

/-- All kinds. -/
def all : List Kind := [.array, .int, .float, .string]

/-- The kind of a name. -/
def ofName? (t : Text) : Option Kind :=
  all.find? fun kind => kind.name.toList = t

end Kind

/-- A check names a kind that there is not. -/
structure UnknownKind where
  name : Text
  deriving DecidableEq, Repr

/-- The wording of an unknown kind. -/
def UnknownKind.message (fault : UnknownKind) : String :=
  s!"Unknown primitive kind {shownString fault.name}"

/-- The kind that a check names. -/
def Kind.ofName (t : Text) : Except UnknownKind Kind :=
  (ofName? t).elim (.error ⟨t⟩) .ok

/-! ## 2. Type references -/

/-- A primitive kind, or a class by its path. -/
inductive TypeRef where
  | primitive (kind : Kind)
  | ofClass (path : Text)
  deriving DecidableEq, Repr

/-- A member of a union: a type, the null marker, or an ignored pseudo-type. -/
inductive Member where
  | type (type : TypeRef)
  | null
  | ignored (name : Text)
  deriving DecidableEq, Repr

/-- A type, if there is one, and whether null is admitted. -/
structure Typing where
  type : Option TypeRef := none
  nullable : Bool := false
  deriving DecidableEq, Repr

/-- A class name with leading backslashes dropped and dots for backslashes. -/
def normalizePath (name : Text) : Text :=
  (name.dropWhile (· = '\\')).map fun c => if c = '\\' then '.' else c

/-- Whether a text is accepted as a class path. -/
def isClassPath : Text → Bool :=
  uptoLineFeed isDottedPath

/-- A class reference, if the path is well formed. -/
def TypeRef.ofPath (path : Text) : Except ModelFault TypeRef :=
  if isClassPath path then .ok (.ofClass path) else .error (.malformedPath path)

/-- What a union amounts to: the last type in it, and whether null is in it. -/
def Typing.ofMembers (members : List Member) : Typing :=
  members.foldl (fun typing member =>
    match member with
    | .type type => { typing with type := some type }
    | .null => { typing with nullable := true }
    | .ignored _ => typing) {}

end ViewContract
