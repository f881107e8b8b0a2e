/-
ViewContract.Template.Quoted — what a quoted text of a template stands for.

First every character beyond ASCII is written as an escape of its code point,
then all escapes are read: so a backslash in front of such a character escapes
the backslash of its escape. An escape that is not known stays as it is; one
that is cut short has no reading.
-/
import ViewContract.Text.Basic
import ViewContract.Text.Digit
import ViewContract.Text.Shown

namespace ViewContract.Template

open ViewContract.Text

/-! ## 1. Writing characters as escapes -/

/-- A character beyond ASCII as an escape; any other as it is. -/
def asciiChar (c : Char) : Text :=
  if c.toNat < 0x80 then [c]
  else if c.toNat < 0x100 then '\\' :: 'x' :: hexDigits 2 c.toNat
  else if c.toNat < 0x10000 then '\\' :: 'u' :: hexDigits 4 c.toNat
  else '\\' :: 'U' :: hexDigits 8 c.toNat

/-- A text in ASCII, with escapes for the other characters. -/
def asciiText (t : Text) : Text :=
  t.flatMap asciiChar

/-! ## 2. Reading escapes -/

/-- The character of a code point, where a surrogate becomes the replacement
character; `none` beyond the last code point. -/
def codePoint? (n : Nat) : Option Char :=
  if n.isValidChar then some (Char.ofNat n)
  else if n ≤ 0x10ffff then some '\ufffd'
  else none

/-- What an escape after its backslash stands for, and how many characters it takes;
the outer `none` is an escape without a reading. -/
def readEscape (t : Text) : Option (Text × Nat) :=
  let hex (width : Nat) (body : Text) : Option (Text × Nat) := do
    let digits := (body.take width).filterMap (digitBelow? 16)
    if digits.length = width then
      let c ← codePoint? (ofDigits 16 digits)
      pure ([c], width + 1)
    else none
  match t with
  | [] => none
  | c :: rest =>
    if c = '\n' then some ([], 1)
    else if c = '\\' || c = '\'' || c = '"' then some ([c], 1)
    else if c = 'n' then some (['\n'], 1)
    else if c = 't' then some (['\t'], 1)
    else if c = 'r' then some (['\r'], 1)
    else if c = 'b' then some (['\x08'], 1)
    else if c = 'f' then some (['\x0c'], 1)
    else if c = 'v' then some (['\x0b'], 1)
    else if c = 'a' then some (['\x07'], 1)
    else if c = 'x' then hex 2 rest
    else if c = 'u' then hex 4 rest
    else if c = 'U' then hex 8 rest
    else if c = 'N' then none
    else if '0' ≤ c && c ≤ '7' then
      let digits := (t.take 3).takeWhile fun d => '0' ≤ d && d ≤ '7'
      (codePoint? (ofDigits 8 (digits.filterMap (digitBelow? 8)))).map ([·], digits.length)
    else some (['\\', c], 1)

/-- The rest of a text with its escapes read, where the first `covered` characters
belong to the escape before. -/
def readEscapesFrom (covered : Nat) : Text → Option Text
  | [] => some []
  | c :: rest =>
    match covered with
    | covered + 1 => readEscapesFrom covered rest
    | 0 =>
      if c ≠ '\\' then (c :: ·) <$> readEscapesFrom 0 rest
      else do
        let (read, length) ← readEscape rest
        let others ← readEscapesFrom length rest
        pure (read ++ others)

/-- What the characters between the quotes stand for. -/
def unescape (inner : Text) : Option Text :=
  readEscapesFrom 0 (asciiText inner)

/-- What a string token stands for. -/
def unquote (token : Text) : Option Text :=
  unescape ((token.drop 1).dropLast)

end ViewContract.Template
