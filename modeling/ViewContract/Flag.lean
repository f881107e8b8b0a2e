/-
ViewContract.Flag — truth values as they are given.

A flag is a truth value, zero or one, or one of the words for true and false.
Words match in any case of letters and are not trimmed.
-/
import ViewContract.Fault

namespace ViewContract

/-- A flag as it is given. -/
inductive Flag where
  | bool (value : Bool)
  | int (value : Int)
  | word (value : Text)
  /-- A value that can be no flag. -/
  | other
  deriving DecidableEq, Repr

/-- The words for true. -/
def trueWords : List String := ["1", "on", "t", "true", "y", "yes"]

/-- The words for false. -/
def falseWords : List String := ["0", "off", "f", "false", "n", "no"]

/-- The truth value of a word in lower case. -/
def truthOfWord? (word : Text) : Option Bool :=
  if trueWords.any (·.toList = word) then some true
  else if falseWords.any (·.toList = word) then some false
  else none

/-- The truth value of a flag. -/
def Flag.read : Flag → Except ModelFault Bool
  | .bool value => .ok value
  | .int value =>
    if value = 1 then .ok true else if value = 0 then .ok false else .error .notBoolean
  | .word t => (truthOfWord? (t.map Char.toLower)).elim (.error .notBoolean) .ok
  | .other => .error .notFlag

end ViewContract
