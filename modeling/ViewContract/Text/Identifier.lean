/-
ViewContract.Text.Identifier — ASCII identifiers and paths of them.

An identifier is a letter or underscore followed by letters, digits and
underscores, all ASCII. A path is a sequence of identifiers with one
separator between neighbours.

Names and paths are validated up to the end of a line: one line feed after
them is let through (`uptoLineFeed`).
-/
import ViewContract.Text.Basic

namespace ViewContract.Text

/-- Whether a character may begin an identifier. -/
def isIdentifierStart (c : Char) : Bool :=
  c.isAlpha || c = '_'

/-- Whether a character may continue an identifier. -/
def isIdentifierPart (c : Char) : Bool :=
  c.isAlphanum || c = '_'

/-- Whether a text is an identifier. -/
def isIdentifier : Text → Bool
  | [] => false
  | c :: rest => isIdentifierStart c && rest.all isIdentifierPart

/-- The identifier that a text begins with, if it begins with one. -/
def leadingIdentifier? : Text → Option Text
  | [] => none
  | c :: rest => if isIdentifierStart c then some (c :: rest.takeWhile isIdentifierPart) else none

/-- Whether a text is a sequence of identifiers with dots between them. -/
def isDottedPath (t : Text) : Bool :=
  (splitOn '.' t).all isIdentifier

/-- A check that reads to the end of a line: what it accepts may be followed by
one line feed. -/
def uptoLineFeed (accepts : Text → Bool) (t : Text) : Bool :=
  accepts t || (t.getLast? == some '\n' && accepts t.dropLast)

/-! ## Paths with either separator -/

/-- How far a text goes on with separators and identifiers, one after the
other, where a separator is a backslash or a dot. -/
def pathTailLength : Nat → Text → Nat
  | 0, _ => 0
  | _, [] => 0
  | fuel + 1, c :: rest =>
    if c = '\\' || c = '.' then
      match leadingIdentifier? rest with
      | none => 0
      | some name => 1 + name.length + pathTailLength fuel (rest.drop name.length)
    else 0

/-- The length of the class name that a text begins with: an optional
backslash, then identifiers separated by backslashes or dots. -/
def classNameLength? (t : Text) : Option Nat :=
  let (lead, body) := match t with
    | '\\' :: rest => (1, rest)
    | _ => (0, t)
  (leadingIdentifier? body).map fun name =>
    lead + name.length + pathTailLength body.length (body.drop name.length)

/-- Whether the whole text is a class name. -/
def isClassName (t : Text) : Bool :=
  classNameLength? t == some t.length

end ViewContract.Text
