/-
ViewContract.Settings — whether checks are written and raw code is allowed.

Settings come from arguments or else from variables of the environment, whose
names match in any case of letters; both flags are on by default.
-/
import ViewContract.Flag
import ViewContract.Text.Lowercase

namespace ViewContract

open Text

/-- The settings of a compilation. -/
structure Settings where
  /-- Annotations become guards; otherwise they are removed. -/
  enabled : Bool := true
  /-- Templates may hold raw code. -/
  allowRawCode : Bool := true
  deriving DecidableEq, Repr

namespace Settings

/-- What the names of settings begin with among the environment. -/
def variableLead : Text := "jinja_expects_".toList

/-- The flag of a setting: its argument, or else the last variable of its name. -/
def flag? (environment : List (Text × Text)) (arguments : List (Text × Flag)) (name : String) :
    Option Flag :=
  match arguments.find? (·.1 = name.toList) with
  | some (_, flag) => some flag
  | none =>
    (environment.reverse.find? fun (key, _) => lower key = variableLead ++ name.toList).map
      fun (_, value) => .word value

/-- The settings of variables and arguments; what is not a setting is ignored. -/
def ofSources (environment : List (Text × Text)) (arguments : List (Text × Flag)) :
    Except ModelFault Settings := do
  let enabled ← ((flag? environment arguments "enabled").getD (.bool true)).read
  let allowRawCode ← ((flag? environment arguments "allow_raw_code").getD (.bool true)).read
  pure { enabled, allowRawCode }

end Settings

end ViewContract
