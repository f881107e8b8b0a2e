/-
ViewContract.Number.Literal — number literals.

A literal is read as an integer in the old octal spelling, else as an integer
with an optional prefix, else as a double. The last step is only tried when
the text begins, after its signs, with an ASCII digit or a point.
-/
import ViewContract.Text.Blank
import ViewContract.Number.Reader
import ViewContract.Text.Shown

namespace ViewContract

open Text

/-- A number as its literal says: an integer or a double. -/
inductive Number.Literal where
  | int (value : Int)
  | float (value : Number.Binary64)
  deriving DecidableEq, Repr

namespace Number

/-- Why a text is no number. -/
inductive LiteralFault where
  | notNumeric (text : Text)
  | notDouble (text : Text)
  deriving DecidableEq, Repr

/-- The wording of a literal fault. -/
def LiteralFault.message : LiteralFault → String
  | .notNumeric text => s!"not a numeric literal: {shownString text}"
  | .notDouble text => s!"could not convert string to float: {shownString text}"

/-- Whether a text begins like a number once all signs are passed over. -/
def beginsNumeric (t : Text) : Bool :=
  match t.dropWhile fun c => c = '+' || c = '-' with
  | [] => false
  | c :: _ => c.isDigit || c = '.'

/-- The number that a text stands for. -/
def Literal.read (text : Text) : Except LiteralFault Literal :=
  let body := trim text
  if isOldOctal body then .ok (.int (readOldOctal body))
  else match readInt? body with
    | some n => .ok (.int n)
    | none =>
      if !beginsNumeric body then .error (.notNumeric text)
      else match readDouble? body with
        | some x => .ok (.float x)
        | none => .error (.notDouble body)

/-- The number with the other sign. -/
def Literal.neg : Literal → Literal
  | .int n => .int (-n)
  | .float x => .float x.neg

end Number

end ViewContract
