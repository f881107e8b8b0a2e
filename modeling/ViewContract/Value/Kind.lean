/-
ViewContract.Value.Kind — the kind of a value, and the checks of a type.

The kind of a value is that of its class. A list, a tuple and a dictionary are
arrays, and an instance of a class below theirs is one, too; a boolean is of no
kind, though its class lies below that of integers. A class check asks for the
class of the value and for what the class claims. It fails for a path that
names no class, and the failure is noted as an event.
-/
import ViewContract.Event
import ViewContract.TypeRef

namespace ViewContract

/-- The built-in classes of a kind. -/
def Kind.classes : Kind → List Class
  | .array => [.builtin "list", .builtin "tuple", .builtin "dict"]
  | .int => [.builtin "int"]
  | .float => [.builtin "float"]
  | .string => [.builtin "str"]

/-- Whether the instances of a class are of a kind. Truth values are no integers. -/
def Class.isOfKind (c : Class) (kind : Kind) : Bool :=
  kind.classes.any c.isBelow && !(kind = .int && c.isBelow .bool)

namespace Value

/-- Whether a value is of a kind. -/
def isOfKind (v : Value) (kind : Kind) : Bool :=
  v.ofClass.isOfKind kind

/-- The name of a value's kind in messages; for a value of no kind, the name of
its class. -/
def kindName (v : Value) : Text :=
  match v with
  | .null => "null".toList
  | _ =>
    if v.ofClass.isBelow .bool then "bool".toList
    else match Kind.all.find? v.isOfKind with
      | some kind => kind.name.toList
      | none => v.ofClass.name

/-- Whether a value is an instance of the class that a path names. -/
def isInstance (registry : Registry) (path : Text) (v : Value) : Logged Bool :=
  match registry.resolve path with
  | .ok c => { value := v.ofClass.isBelow c || registry.claims c v }
  | .error fault => { log := [.unresolvedClass path fault], value := false }

end Value

end ViewContract
