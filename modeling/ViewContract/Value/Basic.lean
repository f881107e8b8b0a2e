/-
ViewContract.Value.Basic — the values that a template is rendered with.

Besides data a value can be an instance of a class, a class itself, a function
of the environment, the template itself, or a default expression that was read
and not evaluated.
-/
import ViewContract.Value.Class
import ViewContract.Number.Binary64
import ViewContract.Ordering

namespace ViewContract

/-- A value at render time. -/
inductive Value where
  | null
  | bool (value : Bool)
  | int (value : Int)
  | float (value : Number.Binary64)
  | string (value : Text)
  | list (items : List Value)
  | tuple (items : List Value)
  | dict (entries : List (Value × Value))
  | set (items : List Value)
  | bytes (value : List UInt8)
  /-- A constant or construction that a parameter list gives as a default. -/
  | expression (description : Text)
  /-- An instance of a class. -/
  | object (ofClass : Class)
  /-- A class as a value. -/
  | type (ofClass : Class)
  /-- A function that the environment offers to templates. -/
  | function (name : Text)
  /-- The template that is rendered. -/
  | template

namespace Value

/-- The class that a value is a direct instance of. -/
def ofClass : Value → Class
  | .null => .builtin "NoneType"
  | .bool _ => .bool
  | .int _ => .builtin "int"
  | .float _ => .builtin "float"
  | .string _ => .builtin "str"
  | .list _ => .builtin "list"
  | .tuple _ => .builtin "tuple"
  | .dict _ => .builtin "dict"
  | .set _ => .builtin "set"
  | .bytes _ => .builtin "bytes"
  | .expression _ => .builtin "DefaultExpression"
  | .object c => c
  | .type _ => .builtin "type"
  | .function _ => .builtin "function"
  | .template => .builtin "TemplateReference"

/-- The integer that a value equals as an item: the truth values equal zero and one. -/
def integer? : Value → Option Int
  | .int n => some n
  | .bool value => some (if value then 1 else 0)
  | _ => none

/-- Whether two values are the same item of a set or the same key. -/
def isSameItem : Value → Value → Bool
  | .null, .null => true
  | .string s, .string t => s = t
  | .bytes s, .bytes t => s = t
  | .float x, .float y => x = y
  | a, b =>
    match a.integer?, b.integer? with
    | some m, some n => m = n
    | _, _ => false

/-- The items of a list, each at its first place only. -/
def distinctItems (items : List Value) : List Value :=
  items.foldl (fun seen v => if seen.any v.isSameItem then seen else seen ++ [v]) []

/-- The set of some items. Integers stand in ascending order, other items in the
order given. -/
def setOf (items : List Value) : Value :=
  let items := distinctItems items
  if items.all (·.integer?.isSome) then .set (sortOn (fun v => v.integer?.getD 0) items)
  else .set items

/-- An entry put into a dictionary: a key that is there keeps its place. -/
def putEntry (key value : Value) : List (Value × Value) → List (Value × Value)
  | [] => [(key, value)]
  | (k, v) :: rest =>
    if key.isSameItem k then (k, value) :: rest else (k, v) :: putEntry key value rest

/-- The dictionary of some entries, of which the last one of a key gives its value. -/
def dictOf (entries : List (Value × Value)) : Value :=
  .dict (entries.foldl (fun dict (key, value) => putEntry key value dict) [])

/-- Whether a value counts as true in a condition. -/
def isTrue : Value → Bool
  | .null => false
  | .bool value => value
  | .int value => value ≠ 0
  | .float (.finite _ significand _) => significand ≠ 0
  | .string value => !value.isEmpty
  | .list items | .tuple items | .set items => !items.isEmpty
  | .dict entries => !entries.isEmpty
  | .bytes value => !value.isEmpty
  | _ => true

end Value

end ViewContract
