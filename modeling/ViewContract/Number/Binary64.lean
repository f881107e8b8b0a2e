/-
ViewContract.Number.Binary64 — double-precision numbers, exactly.

A finite double is a sign and a magnitude `significand · 2 ^ exponent`, kept
as natural number and integer, so that reading and writing decimals is exact
arithmetic. Finite values built here have a significand below `2 ^ 53` and an
exponent from -1074 to 971, with the significand at least `2 ^ 52` unless the
exponent is the least.
-/
import ViewContract.Number.Rounding

namespace ViewContract.Number

/-- A double: a finite value with its sign, an infinity, or not a number. -/
inductive Binary64 where
  | finite (negative : Bool) (significand : Nat) (exponent : Int)
  | infinite (negative : Bool)
  | nan
  deriving DecidableEq, Repr, Inhabited

namespace Binary64

/-! ## 1. The format -/

/-- The number of bits of a significand. -/
def precision : Int := 53

/-- The exponent of the least positive value. -/
def minExponent : Int := -1074

/-- The greatest exponent of a finite value. -/
def maxExponent : Int := 971

/-- A zero of either sign. -/
def zero (negative : Bool) : Binary64 :=
  .finite negative 0 minExponent

/-- Whether a double is neither infinite nor not a number. -/
def isFinite : Binary64 → Bool
  | .finite .. => true
  | _ => false

/-- The double with the other sign. -/
def neg : Binary64 → Binary64
  | .finite negative significand exponent => .finite (!negative) significand exponent
  | .infinite negative => .infinite (!negative)
  | .nan => .nan

/-! ## 2. Rounding to a double -/

/-- `num / den` scaled by `2 ^ -exponent` and rounded to a natural number. -/
def scaledRound (num den : Nat) (exponent : Int) : Nat :=
  roundDiv (num * twoTo (-exponent)) (den * twoTo exponent)

/-- The greatest `e` with `2 ^ e ≤ num / den`, for positive `num` and `den`. -/
def floorLog2 (num den : Nat) : Int :=
  let guess : Int := (num.log2 : Int) - (den.log2 : Int)
  if den * twoTo guess ≤ num * twoTo (-guess) then guess else guess - 1

/-- The double nearest to `num / den`, ties to the even significand; too large
a quotient becomes infinite. -/
def ofRatio (negative : Bool) (num den : Nat) : Binary64 :=
  if num = 0 then zero negative
  else
    let exponent := max (floorLog2 num den - (precision - 1)) minExponent
    let significand := scaledRound num den exponent
    let (significand, exponent) :=
      if significand = twoTo precision then (twoTo (precision - 1), exponent + 1)
      else (significand, exponent)
    if maxExponent < exponent then .infinite negative
    else .finite negative significand exponent

/-- The double nearest to an integer; `none` if that is not finite. -/
def ofInt? (n : Int) : Option Binary64 :=
  let x := ofRatio (n < 0) n.natAbs 1
  if x.isFinite then some x else none

/-- The double nearest to `digits · 10 ^ exponent`. A decimal of more than 310
places before the point exceeds every double, and one that begins after 330
zeros behind the point is less than half the least double, so no great power
is computed. -/
def ofDecimal (negative : Bool) (digits : Nat) (exponent : Int) : Binary64 :=
  let places := (decimalLength digits : Int) + exponent
  if digits = 0 || places < -330 then zero negative
  else if 310 < places then .infinite negative
  else ofRatio negative (digits * tenTo exponent) (tenTo (-exponent))

end Binary64

end ViewContract.Number
