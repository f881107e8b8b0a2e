/-
ViewContract.Signature.CodePoint — both spellings of a quoted text, with surrogates.

A parameter list can quote a text in two ways: between double quotes, with the
escapes of a template, or between single quotes, where the backslash and the
quote get a backslash and nothing else changes. As in templates, a surrogate
may stand in a quoted text of the host, and an escape can be the number of one;
so reading is extended to code points. On characters it is `unquote`.
-/
import ViewContract.Signature.Quoted
import ViewContract.Template.CodePoint

namespace ViewContract

open Text

/-! ## 1. Single quotes -/

/-- One character of a text between single quotes. -/
def singleQuotedChar (c : Char) : Text :=
  if c = '\\' || c = '\'' then ['\\', c] else [c]

/-- A text between single quotes. -/
def singleQuoted (t : Text) : Text :=
  '\'' :: t.flatMap singleQuotedChar ++ ['\'']

/-- One code point between single quotes. -/
def singleQuotedPoint : CodePoint → List CodePoint
  | .char c => (singleQuotedChar c).map .char
  | .surrogate index => [.surrogate index]

/-- Code points between single quotes. -/
def singleQuotedPoints (ps : List CodePoint) : List CodePoint :=
  .char '\'' :: ps.flatMap singleQuotedPoint ++ [.char '\'']

/-! ## 2. Reading -/

namespace Signature

/-- The code point of a number up to the greatest. -/
def codePointOf (n : Nat) : CodePoint :=
  (CodePoint.surrogate? n).getD (.char (charOfCodePoint n))

/-- The code points between single quotes. -/
def unescapeSinglePoints : List CodePoint → List CodePoint
  | [] => []
  | .char '\\' :: .char '\\' :: rest => .char '\\' :: unescapeSinglePoints rest
  | .char '\\' :: .char '\'' :: rest => .char '\'' :: unescapeSinglePoints rest
  | p :: rest => p :: unescapeSinglePoints rest

/-- The code points between double quotes from some place on, where the first `covered`
belong to the escape before. No surrogate is part of an escape. -/
def unescapeDoublePointsFrom (position : Option Nat) (covered : Nat) :
    List CodePoint → Except GrammarFault (List CodePoint)
  | [] => .ok []
  | p :: rest =>
    match covered with
    | covered + 1 => unescapeDoublePointsFrom position covered rest
    | 0 =>
      if p ≠ .char '\\' then (p :: ·) <$> unescapeDoublePointsFrom position 0 rest
      else match escape? (rest.map CodePoint.shown) with
        | none => (p :: ·) <$> unescapeDoublePointsFrom position 0 rest
        | some (.char c length) => (.char c :: ·) <$> unescapeDoublePointsFrom position length rest
        | some (.plain _) =>
          (p :: rest.take 1 ++ ·) <$> unescapeDoublePointsFrom position 1 rest
        | some (.codePoint n length) =>
          if lastCodePoint < n then
            .error (.invalidCodePoint ('\\' :: (rest.map CodePoint.shown).take length) position)
          else (codePointOf n :: ·) <$> unescapeDoublePointsFrom position length rest

/-- The code points that a quoted token stands for. -/
def unquotePoints (position : Option Nat) (token : List CodePoint) :
    Except GrammarFault (List CodePoint) :=
  let inner := (token.drop 1).dropLast
  if token.head? = some (.char '\'') then .ok (unescapeSinglePoints inner)
  else unescapeDoublePointsFrom position 0 inner

end Signature

end ViewContract
