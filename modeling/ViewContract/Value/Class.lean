/-
ViewContract.Value.Class — classes.

A class is known by its qualified path and by the paths of all the classes
above it, those that it is registered with as well as those that it is derived
from. A built-in class is given without the classes that it is registered
with: what lies above the values of built-in classes besides, an application
says in its registry.
-/
import ViewContract.Text.Basic

namespace ViewContract

/-- A class with the paths of all classes above it. -/
structure Class where
  path : Text
  above : List Text := []
  deriving DecidableEq, Repr

namespace Class

/-- The part of the path after the last dot. -/
def name (c : Class) : Text :=
  (c.path.reverse.takeWhile (· ≠ '.')).reverse

/-- The class that everything is an instance of. -/
def object : Class := { path := "object".toList }

/-- Whether a class is another one or below it. -/
def isBelow (c d : Class) : Bool :=
  c.path = d.path || c.above.contains d.path || d.path = object.path

/-- A built-in class. -/
def builtin (name : String) (above : List String := []) : Class :=
  { path := name.toList, above := above.map String.toList }

/-- The class of truth values, which lies below that of integers. -/
def bool : Class := .builtin "bool" ["int"]

end Class

end ViewContract
