/-
ViewContract.Number.Printed — the text of numbers.

Integers are written in decimal, and refused beyond a limit of digits.
Doubles are written with their shortest digits, positionally or with an
exponent as a `Layout` says.
-/
import ViewContract.Text.Basic
import ViewContract.Number.Shortest

namespace ViewContract.Number

/-! ## 1. Integers -/

/-- The greatest number of decimal digits that an integer is read from or
written with. -/
def digitLimit : Nat := 4300

/-- An integer has more decimal digits than the limit. -/
structure TooManyDigits where
  deriving DecidableEq, Repr

/-- The wording of the limit. -/
def TooManyDigits.message (_ : TooManyDigits) : String :=
  s!"Exceeds the limit ({digitLimit} digits) for integer string conversion; " ++
    "use sys.set_int_max_str_digits() to increase the limit"

/-- An integer in decimal, of whatever length. -/
def decimalText (n : Int) : Text :=
  let digits := Nat.toDigits 10 n.natAbs
  if n < 0 then '-' :: digits else digits

/-- An integer in decimal, within the limit. -/
def decimalText? (n : Int) : Except TooManyDigits Text :=
  if digitLimit < decimalLength n.natAbs then .error {} else .ok (decimalText n)

/-! ## 2. Doubles -/

/-- Where doubles are written positionally, and how exponents are. -/
structure Layout where
  /-- The least decimal exponent that is written positionally. -/
  leastPositional : Int
  /-- The least decimal exponent that is again written with an exponent. -/
  positionalBelow : Int
  /-- The least number of digits of an exponent. -/
  exponentDigits : Nat

/-- Doubles are written positionally from `0.0001` to below `10 ^ 16`, always
with a point; otherwise with a signed exponent of two digits or more. -/
def standardLayout : Layout := ⟨-4, 16, 2⟩

/-- A natural number with at least `width` digits. -/
def paddedText (width n : Nat) : Text :=
  let digits := Nat.toDigits 10 n
  List.replicate (width - digits.length) '0' ++ digits

/-- Digits with the point after the first `places` of them; zeros fill up on
either side, and a whole number keeps one zero after the point. -/
def positionalText (digits : Text) (places : Int) : Text :=
  if places ≤ 0 then
    "0.".toList ++ List.replicate (-places).toNat '0' ++ digits
  else
    let whole := places.toNat
    if digits.length ≤ whole then
      digits ++ List.replicate (whole - digits.length) '0' ++ ".0".toList
    else digits.take whole ++ '.' :: digits.drop whole

/-- Digits with the point after the first and a power of ten. -/
def exponentText (layout : Layout) (digits : Text) (exponent : Int) : Text :=
  let fraction := if digits.length ≤ 1 then [] else '.' :: digits.drop 1
  let sign := if exponent < 0 then '-' else '+'
  digits.take 1 ++ fraction ++ 'e' :: sign :: paddedText layout.exponentDigits exponent.natAbs

/-- The text of a positive decimal `digits · 10 ^ power`. -/
def Layout.write (layout : Layout) (digits : Nat) (power : Int) : Text :=
  let text := Nat.toDigits 10 digits
  let exponent := power + text.length - 1
  if layout.leastPositional ≤ exponent && exponent < layout.positionalBelow then
    positionalText text (exponent + 1)
  else exponentText layout text exponent

/-- The text of a double. -/
def Binary64.text : Binary64 → Text
  | .nan => "nan".toList
  | .infinite negative => (if negative then "-inf" else "inf").toList
  | .finite negative significand exponent =>
    let magnitude :=
      if significand = 0 then "0.0".toList
      else
        let (digits, power) := Shortest.decimal significand exponent
        standardLayout.write digits power
    if negative then '-' :: magnitude else magnitude

end ViewContract.Number
