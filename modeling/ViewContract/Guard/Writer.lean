/-
ViewContract.Guard.Writer — guards written one declaration after another.

A writer holds the text so far and how many guards are in it. A declaration
whose default cannot be written leaves the writer as it was.
-/
import ViewContract.Guard.Basic

namespace ViewContract

/-- A session of writing guards. -/
structure Writer where
  delimiters : Delimiters := {}
  text : Text := []
  count : Nat := 0
  deriving DecidableEq, Repr

namespace Writer

/-- Write the guards of one declaration. -/
def write (w : Writer) (d : Declaration) : Except RangeFault Writer := do
  let statements ← Guard.statementsAfter w.delimiters w.count d.guards
  pure { w with text := w.text ++ statements, count := w.count + d.guards.length }

/-- Write declarations up to the first that fails. The writer keeps what was
written before the failure. -/
def writeAll (w : Writer) : List Declaration → Writer × Except RangeFault Unit
  | [] => (w, .ok ())
  | d :: ds =>
    match w.write d with
    | .ok w => w.writeAll ds
    | .error fault => (w, .error fault)

end Writer

end ViewContract
