/-
ViewContract.Number.Rounding — scaling and rounding of natural numbers.

A quotient is rounded to the nearest natural number, and one exactly half way
to the even neighbour.
-/

namespace ViewContract.Number

/-- The natural number nearest to `num / den`; of two, the even one. -/
def roundDiv (num den : Nat) : Nat :=
  let below := num / den
  let twice := 2 * (num % den)
  if twice < den then below
  else if den < twice then below + 1
  else below + below % 2

/-- A power of two; one for a negative exponent, so that `twoTo e / twoTo (-e)` is
the quotient that stands for the power. -/
def twoTo (exponent : Int) : Nat :=
  Nat.pow 2 exponent.toNat

/-- A power of ten; one for a negative exponent, as with `twoTo`. -/
def tenTo (exponent : Int) : Nat :=
  Nat.pow 10 exponent.toNat

/-- How many decimal digits a number is written with. -/
def decimalLength (n : Nat) : Nat :=
  (Nat.toDigits 10 n).length

end ViewContract.Number
