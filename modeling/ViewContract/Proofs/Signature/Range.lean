/-
ViewContract.Proofs.Signature.Range — parameter lists have no number out of range.

A default of a parameter list may be any integer, and it is not turned into a double. Only a
value of a kind that no default is read as would be shown in a message, which is where an integer
could be too long. So what is read as a default is a `Value.Plain`, and a plain value is a literal
or is refused for its kind. What is left to be out of range is the depth of a value, which the
readers meet before there is one.
-/
import ViewContract.Proofs.InRange
import ViewContract.Proofs.Signature.Reading

namespace ViewContract

open Text

/-- The values that a default can be read as. -/
def Value.Plain : Value → Prop
  | .null | .bool _ | .int _ | .float _ | .string _ | .list _ | .expression _ => True
  | _ => False

/-- A plain value is a literal, or it is refused for its kind. -/
theorem inRange_ofValue {v : Value} (hv : v.Plain) :
    InRange (fun _ => True) ((Literal.ofValue v).mapError DefaultError.inBody) := by
  cases v with
  | float x =>
    simp only [Literal.ofValue, Literal.ofFiniteDouble]
    split <;> exact trivial
  | null | bool _ | int _ | string _ | list _ | expression _ => exact trivial
  | _ => exact hv.elim

namespace Signature

theorem plain_valueOfNumber (number : Number.Literal) : (valueOfNumber number).Plain := by
  cases number <;> exact trivial

theorem kept_plain (stop : Nat) :
    Kept stop (fun _ => True) Value.Plain (fun _ => True) where
  unexpected what tokens _ := by cases tokens <;> exact trivial
  depth := trivial
  number token _ := gives_mapError (fun _ _ => ⟨plain_valueOfNumber _, plain_valueOfNumber _⟩)
    fun _ _ => trivial
  string token _ := gives_mapError (fun _ _ => trivial) fun _ _ => trivial
  null := trivial
  bool _ := trivial
  list _ := trivial
  expression _ := trivial

/-- **What is read as a default is plain.** -/
theorem plain_of_readDefault {stop room fuel : Nat} {tokens rest : List Token} {v : Value}
    (h : readDefault stop room fuel tokens = .ok (v, rest)) : v.Plain := by
  have hgives : Gives (fun _ => True) _ (readDefault stop room fuel tokens) :=
    Reading.gives_read (kept_plain stop) (r := .default tokens) (fun _ _ => trivial) fuel room
  rw [h] at hgives
  exact hgives.1

end Signature

end ViewContract
