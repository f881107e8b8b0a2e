/-
ViewContract.Default — which values become defaults.

A parameter list gives a default as a value, which must be null, an integer, a
finite double or a text. A doc comment gives it as a text, which is read as
the declared kind asks.
-/
import ViewContract.Declaration
import ViewContract.Number.Literal
import ViewContract.Text.Lowercase
import ViewContract.Value.Shown

namespace ViewContract

open Text

/-- Why a default is refused: it cannot be a default, or a number in it is out
of range. -/
inductive DefaultError where
  | fault (fault : DefaultFault)
  | range (fault : RangeFault)
  deriving DecidableEq, Repr

/-- A double as a default, which must be finite. -/
def Literal.ofFiniteDouble (x : Number.Binary64) : Except DefaultError Literal :=
  if x.isFinite then .ok (.float x) else .error (.fault (.notFinite x))

/-- The literal of a value that can be a default. -/
def Literal.ofValue : Value → Except DefaultError Literal
  | .null => .ok .null
  | .bool value => .error (.fault (.boolean value))
  | .int value => .ok (.int value)
  | .float value => Literal.ofFiniteDouble value
  | .string value => .ok (.string value)
  | .list _ | .dict _ => .error (.fault .array)
  | .expression description => .error (.fault (.expression description))
  | value =>
    match value.shown with
    | .ok text => .error (.fault (.unsupported text))
    | .error _ => .error (.range .digits)

/-- The default that a text stands for under a declared type: null in any case
of letters, a text for an array or a string, a number for the numeric kinds,
and nothing for a class or without a type. -/
def Literal.ofText (text : Text) (type : Option TypeRef) : Except DefaultError (Option Literal) :=
  if lower text = "null".toList then .ok (some .null)
  else match type with
    | some (.primitive .array) | some (.primitive .string) => .ok (some (.string text))
    | some (.primitive .int) =>
      match Number.Literal.read text with
      | .ok (.int n) => .ok (some (.int n))
      | _ => .error (.fault (.notOfKind text Kind.int.name))
    | some (.primitive .float) =>
      match Number.Literal.read text with
      | .ok (.float x) => some <$> Literal.ofFiniteDouble x
      | .ok (.int n) =>
        match Number.Binary64.ofInt? n with
        | some x => .ok (some (.float x))
        | none => .error (.range .overflow)
      | .error _ => .error (.fault (.notOfKind text Kind.float.name))
    | some (.ofClass _) | none => .ok none

end ViewContract
