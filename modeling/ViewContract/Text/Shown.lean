/-
ViewContract.Text.Shown — text quoted for messages.

A message shows a text between quotes: single ones, unless the text has a
single quote and no double one. The quote itself, the backslash and whatever
is not printable are escaped, so a message is one line and says exactly
which characters the text has.
-/
import ViewContract.Text.Basic
import ViewContract.Text.Printable

namespace ViewContract.Text

/-- The `width` lowest digits of a number in base sixteen. -/
def hexDigits (width n : Nat) : Text :=
  let digits := Nat.toDigits 16 n
  List.replicate (width - digits.length) '0' ++ digits

/-- The quote that a text is shown between. -/
def quoteFor (t : Text) : Char :=
  if t.contains '\'' && !t.contains '"' then '"' else '\''

/-- One character of a shown text. -/
def shownChar (quote c : Char) : Text :=
  if c = quote || c = '\\' then ['\\', c]
  else if c = '\n' then ['\\', 'n']
  else if c = '\r' then ['\\', 'r']
  else if c = '\t' then ['\\', 't']
  else if isPrintable c then [c]
  else if c.toNat < 0x100 then '\\' :: 'x' :: hexDigits 2 c.toNat
  else if c.toNat < 0x10000 then '\\' :: 'u' :: hexDigits 4 c.toNat
  else '\\' :: 'U' :: hexDigits 8 c.toNat

/-- A text between quotes, as messages show it. -/
def shown (t : Text) : Text :=
  let quote := quoteFor t
  quote :: t.flatMap (shownChar quote) ++ [quote]

/-- A text as a string. -/
abbrev asString (t : Text) : String :=
  String.ofList t

/-- A quoted text as a string. -/
def shownString (t : Text) : String :=
  asString (shown t)

end ViewContract.Text
