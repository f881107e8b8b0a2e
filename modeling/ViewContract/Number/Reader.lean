/-
ViewContract.Number.Reader — numbers read from text.

Integers may have a sign, a prefix for base sixteen, eight or two, and single
underscores between digits; a decimal may not begin with zero unless it is
zero. Doubles are decimals with a point or an exponent, or the words for
infinity and for not a number. Decimal digits of every script count.
-/
import ViewContract.Text.Digit
import ViewContract.Number.Printed

namespace ViewContract.Number

open ViewContract.Text

/-! ## 1. Signs and digits -/

/-- A text whose decimal digits are ASCII; other characters stay. -/
def plainDigits (t : Text) : Text :=
  t.map fun c =>
    match decimalDigit? c with
    | some value => Nat.digitChar value
    | none => c

/-- An optional sign, and what follows it. -/
def splitSign : Text → Bool × Text
  | '-' :: rest => (true, rest)
  | '+' :: rest => (false, rest)
  | t => (false, t)

/-- The values of digits with single underscores between them, at least one;
`afterDigit` says whether an underscore or the end may come next. -/
def groupedDigits? (base : Nat) : Bool → Text → Option (List Nat)
  | afterDigit, [] => if afterDigit then some [] else none
  | afterDigit, '_' :: rest => if afterDigit then groupedDigits? base false rest else none
  | _, c :: rest => do
    let value ← digitBelow? base c
    let values ← groupedDigits? base true rest
    pure (value :: values)

/-! ## 2. Integers -/

/-- The base that a prefix announces and the text after it. One underscore may
follow a prefix. -/
def splitBase : Text → Nat × Text
  | '0' :: c :: rest =>
    let base :=
      if c = 'x' || c = 'X' then 16
      else if c = 'o' || c = 'O' then 8
      else if c = 'b' || c = 'B' then 2
      else 10
    if base = 10 then (10, '0' :: c :: rest)
    else match rest with
      | '_' :: digits => (base, digits)
      | digits => (base, digits)
  | t => (10, t)

/-- The natural number that a text with an optional prefix stands for. A decimal
has at most `digitLimit` digits, and begins with zero only if it is zero. -/
def readNat? (t : Text) : Option Nat := do
  let (base, body) := splitBase t
  let digits ← groupedDigits? base false body
  let value := ofDigits base digits
  if base = 10 then
    if digitLimit < digits.length then none
    else if digits.head? = some 0 && value ≠ 0 then none
    else some value
  else some value

/-- The integer that a text stands for. -/
def readInt? (t : Text) : Option Int :=
  let (negative, body) := splitSign (plainDigits t)
  (readNat? body).map fun n => if negative then -(n : Int) else n

/-- Whether a text is a sign and an octal number in the old spelling: a zero and
more octal digits. -/
def isOldOctal (t : Text) : Bool :=
  match (splitSign t).2 with
  | '0' :: c :: rest => (c :: rest).all fun d => '0' ≤ d && d ≤ '7'
  | _ => false

/-- The integer of an octal number in the old spelling. -/
def readOldOctal (t : Text) : Int :=
  let (negative, body) := splitSign t
  let n := ofDigits 8 (body.filterMap (digitBelow? 8))
  if negative then -(n : Int) else n

/-! ## 3. Doubles -/

/-- A text without its underscores, each of which must stand between two ASCII
digits. -/
def dropUnderscores? : Option Char → Text → Option Text
  | _, [] => some []
  | previous, '_' :: rest =>
    if previous.any Char.isDigit && rest.head?.any Char.isDigit then
      dropUnderscores? (some '_') rest
    else none
  | _, c :: rest => (dropUnderscores? (some c) rest).map (c :: ·)

/-- The power of ten that an exponent part stands for; no text is power zero. -/
def readExponent? : Text → Option Int
  | [] => some 0
  | c :: rest =>
    if c = 'e' || c = 'E' then
      let (negative, digits) := splitSign rest
      if digits.isEmpty || !digits.all Char.isDigit then none
      else
        let n : Int := ofDigits 10 (digits.filterMap (digitBelow? 10))
        some (if negative then -n else n)
    else none

/-- The double of an unsigned decimal: digits before or after an optional point,
and an optional exponent. -/
def readDecimal? (negative : Bool) (t : Text) : Option Binary64 := do
  let whole := t.takeWhile Char.isDigit
  let afterWhole := t.dropWhile Char.isDigit
  let (fraction, afterFraction) := match afterWhole with
    | '.' :: rest => (rest.takeWhile Char.isDigit, rest.dropWhile Char.isDigit)
    | _ => ([], afterWhole)
  if whole.isEmpty && fraction.isEmpty then none
  else
    let power ← readExponent? afterFraction
    let digits := ofDigits 10 ((whole ++ fraction).filterMap (digitBelow? 10))
    pure (Binary64.ofDecimal negative digits (power - fraction.length))

/-- The double that a text stands for. -/
def readDouble? (t : Text) : Option Binary64 := do
  let plain ← dropUnderscores? none (plainDigits t)
  let (negative, body) := splitSign plain
  let word := String.ofList (body.map Char.toLower)
  if word = "inf" || word = "infinity" then pure (.infinite negative)
  else if word = "nan" then pure .nan
  else readDecimal? negative body

end ViewContract.Number
