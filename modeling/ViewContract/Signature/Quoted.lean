/-
ViewContract.Signature.Quoted — the text of a quoted token.

Between single quotes a backslash escapes a quote or a backslash and is plain
elsewhere. Between double quotes there are escapes for control characters,
for a byte in base eight or sixteen, and for a code point; other escapes stay
as they are. A byte escape in base eight wraps around at 256.
-/
import ViewContract.Grammar
import ViewContract.Text.Digit

namespace ViewContract.Signature

open ViewContract.Text

/-- The greatest code point. -/
def lastCodePoint : Nat := 0x10FFFF

/-- The character of a code point, where a surrogate, which is no character,
becomes the replacement character. -/
def charOfCodePoint (n : Nat) : Char :=
  if n.isValidChar then Char.ofNat n else '\ufffd'

/-- The text between single quotes. -/
def unescapeSingle : Text → Text
  | [] => []
  | '\\' :: '\\' :: rest => '\\' :: unescapeSingle rest
  | '\\' :: '\'' :: rest => '\'' :: unescapeSingle rest
  | c :: rest => c :: unescapeSingle rest

/-- The character that an escape by one letter stands for. -/
def simpleEscape? (c : Char) : Option Char :=
  if c = 'n' then some '\n'
  else if c = 't' then some '\t'
  else if c = 'r' then some '\r'
  else if c = 'v' then some '\x0b'
  else if c = 'f' then some '\x0c'
  else if c = 'e' then some '\x1b'
  else if c = '\\' || c = '$' || c = '"' then some c
  else none

/-- An escape after its backslash: what it stands for, and how many characters
it takes. -/
inductive Escape where
  | char (c : Char) (length : Nat)
  /-- A code point in braces. -/
  | codePoint (n length : Nat)
  /-- No escape: the backslash and the next character stay. -/
  | plain (c : Char)
  deriving DecidableEq, Repr

/-- A code point in braces after the letter `u`. -/
def bracedCodePoint? : Text → Option Escape
  | 'u' :: '\x7b' :: rest =>
    let digits := rest.takeWhile isHexDigit
    match rest.drop digits.length with
    | '\x7d' :: _ =>
      if digits.isEmpty then none
      else some (.codePoint (ofDigits 16 (digits.filterMap (digitBelow? 16))) (digits.length + 3))
    | _ => none
  | _ => none

/-- A byte of one or two digits of base sixteen after the letter `x`. -/
def hexByte? : Text → Option Escape
  | 'x' :: rest =>
    let digits := (rest.take 2).takeWhile isHexDigit
    if digits.isEmpty then none
    else some (.char (Char.ofNat (ofDigits 16 (digits.filterMap (digitBelow? 16))))
      (digits.length + 1))
  | _ => none

/-- A byte of one to three digits of base eight. -/
def octalByte? (t : Text) : Option Escape :=
  let digits := (t.take 3).takeWhile fun c => '0' ≤ c && c ≤ '7'
  if digits.isEmpty then none
  else some (.char (Char.ofNat (ofDigits 8 (digits.filterMap (digitBelow? 8)) % 256)) digits.length)

/-- The escape that follows a backslash. -/
def escape? (t : Text) : Option Escape :=
  hexByte? t <|> bracedCodePoint? t <|> octalByte? t <|>
    t.head?.map fun c => (simpleEscape? c).elim (.plain c) (.char · 1)

/-- The text between double quotes from some place on, where the first `covered`
characters belong to the escape before. -/
def unescapeDoubleFrom (position : Option Nat) (covered : Nat) : Text → Except GrammarFault Text
  | [] => .ok []
  | c :: rest =>
    match covered with
    | covered + 1 => unescapeDoubleFrom position covered rest
    | 0 =>
      if c ≠ '\\' then (c :: ·) <$> unescapeDoubleFrom position 0 rest
      else match escape? rest with
        | none => (c :: ·) <$> unescapeDoubleFrom position 0 rest
        | some (.char d length) => (d :: ·) <$> unescapeDoubleFrom position length rest
        | some (.plain d) => (c :: d :: ·) <$> unescapeDoubleFrom position 1 rest
        | some (.codePoint n length) =>
          if lastCodePoint < n then .error (.invalidCodePoint (c :: rest.take length) position)
          else (charOfCodePoint n :: ·) <$> unescapeDoubleFrom position length rest

/-- The text that a quoted token stands for. -/
def unquote (position : Option Nat) (token : Text) : Except GrammarFault Text :=
  let inner := (token.drop 1).dropLast
  if token.head? = some '\'' then .ok (unescapeSingle inner)
  else unescapeDoubleFrom position 0 inner

end ViewContract.Signature
