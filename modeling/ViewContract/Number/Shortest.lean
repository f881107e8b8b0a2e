/-
ViewContract.Number.Shortest — the fewest decimal digits that read back.

A double stands for all reals nearer to it than to its neighbours, the ends
of that interval included if its significand is even. Its shortest decimal is
the one multiple of a power of ten in the interval whose power is greatest;
of two such multiples it is the nearer, and of two equally near the even one.
-/
import ViewContract.Number.Binary64

namespace ViewContract.Number.Shortest

/-- A positive double with the ends of its interval, as natural numbers over a
common denominator. -/
structure Interval where
  low : Nat
  value : Nat
  high : Nat
  denominator : Nat
  closed : Bool

/-- The interval of `significand · 2 ^ exponent`. Below a power of two the
neighbour is only half as far away. -/
def interval (significand : Nat) (exponent : Int) : Interval :=
  let below :=
    if significand = twoTo (Binary64.precision - 1) && Binary64.minExponent < exponent then 1 else 2
  let scale := twoTo (exponent - 2)
  { low := (4 * significand - below) * scale
    value := 4 * significand * scale
    high := (4 * significand + 2) * scale
    denominator := twoTo (2 - exponent)
    closed := significand % 2 = 0 }

/-- The interval measured in units of `10 ^ power`. -/
def Interval.inUnits (i : Interval) (power : Int) : Interval :=
  let scale := tenTo (-power)
  { low := i.low * scale
    value := i.value * scale
    high := i.high * scale
    denominator := i.denominator * tenTo power
    closed := i.closed }

/-- Whether a whole number of units lies in the interval. -/
def Interval.holds (i : Interval) (units : Nat) : Bool :=
  let x := units * i.denominator
  if i.closed then i.low ≤ x && x ≤ i.high else i.low < x && x < i.high

/-- The whole number of units in the interval that is nearest to its value. -/
def Interval.nearest? (i : Interval) : Option Nat :=
  let below := i.value / i.denominator
  match i.holds below, i.holds (below + 1) with
  | true, true => some (roundDiv i.value i.denominator)
  | true, false => some below
  | false, true => some (below + 1)
  | false, false => none

/-- The least power of ten above the value: `10 ^ (p - 1) ≤ value < 10 ^ p`.
Every positive double times `10 ^ 330` is above one. -/
def Interval.places (i : Interval) : Int :=
  (decimalLength (i.value * tenTo 330 / i.denominator) : Int) - 330

/-- The digits and the power of ten of the shortest decimal; seventeen digits
are always enough. -/
def decimal (significand : Nat) (exponent : Int) : Nat × Int :=
  let i := interval significand exponent
  let candidate? (count : Nat) : Option (Nat × Int) :=
    let power := i.places - count
    (i.inUnits power).nearest?.map fun digits => (digits, power)
  ((List.range 18).findSome? candidate?).getD (i.value / i.denominator, 0)

end ViewContract.Number.Shortest
