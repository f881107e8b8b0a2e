/-
ViewContract.Template.CodePoint — quoted texts with surrogates.

A `Text` is made of characters, but a text of the host is made of code
points: a surrogate may stand in it alone, is quoted as it is, and is read
back from the escape of its number. Here quoting and reading are extended to
such texts; on characters they are `quoted` and `unquote`.
-/
import ViewContract.Guard.Basic
import ViewContract.Template.Quoted

namespace ViewContract

open Text

/-! ## 1. Code points -/

/-- A code point: a character, or one of the surrogates. -/
inductive CodePoint where
  | char (c : Char)
  | surrogate (index : Fin 0x800)
  deriving DecidableEq, Repr

namespace CodePoint

/-- The number of a code point. -/
def toNat : CodePoint → Nat
  | .char c => c.toNat
  | .surrogate index => 0xd800 + index

@[simp] theorem toNat_char (c : Char) : (char c).toNat = c.toNat := rfl

@[simp] theorem toNat_surrogate (index : Fin 0x800) : (surrogate index).toNat = 0xd800 + index :=
  rfl

/-- The surrogate of a number. -/
def surrogate? (n : Nat) : Option CodePoint :=
  if h : 0xd800 ≤ n ∧ n < 0xe000 then some (.surrogate ⟨n - 0xd800, by omega⟩) else none

/-- The character by which a code point is shown in a text. -/
def shown : CodePoint → Char
  | .char c => c
  | .surrogate _ => '\ufffd'

@[simp] theorem shown_char (c : Char) : (char c).shown = c := rfl

@[simp] theorem shown_surrogate (index : Fin 0x800) : (surrogate index).shown = '\ufffd' := rfl

end CodePoint

/-! ## 2. Quoting -/

/-- One code point of a quoted text: no surrogate is escaped. -/
def quotedPoint : CodePoint → List CodePoint
  | .char c => (quotedChar c).map .char
  | .surrogate index => [.surrogate index]

/-- Code points between double quotes. -/
def quotedPoints (ps : List CodePoint) : List CodePoint :=
  .char '"' :: ps.flatMap quotedPoint ++ [.char '"']

namespace Template

/-! ## 3. Reading -/

/-- A code point beyond ASCII as an escape; any other as it is. -/
def asciiPoint : CodePoint → Text
  | .char c => asciiChar c
  | .surrogate index => '\\' :: 'u' :: hexDigits 4 (0xd800 + index)

/-- The surrogate that an escape after its backslash stands for, if it is the escape of
one, and how many characters it takes. -/
def surrogateEscape? (t : Text) : Option (CodePoint × Nat) :=
  let hex (width : Nat) (body : Text) : Option (CodePoint × Nat) :=
    let digits := (body.take width).filterMap (digitBelow? 16)
    if digits.length = width then (CodePoint.surrogate? (ofDigits 16 digits)).map (·, width + 1)
    else none
  match t with
  | 'u' :: rest => hex 4 rest
  | 'U' :: rest => hex 8 rest
  | _ => none

/-- What an escape after its backslash stands for, and how many characters it takes. -/
def readPoint (t : Text) : Option (List CodePoint × Nat) :=
  match surrogateEscape? t with
  | some (p, length) => some ([p], length)
  | none => (readEscape t).map fun (read, length) => (read.map .char, length)

/-- The rest of a text with its escapes read, where the first `covered` characters
belong to the escape before. -/
def readPointsFrom (covered : Nat) : Text → Option (List CodePoint)
  | [] => some []
  | c :: rest =>
    match covered with
    | covered + 1 => readPointsFrom covered rest
    | 0 =>
      if c ≠ '\\' then (.char c :: ·) <$> readPointsFrom 0 rest
      else do
        let (read, length) ← readPoint rest
        let others ← readPointsFrom length rest
        pure (read ++ others)

/-- What a string token stands for. -/
def unquotePoints (token : List CodePoint) : Option (List CodePoint) :=
  readPointsFrom 0 (((token.drop 1).dropLast).flatMap asciiPoint)

end Template

end ViewContract
