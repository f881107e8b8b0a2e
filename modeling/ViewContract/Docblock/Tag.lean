/-
ViewContract.Docblock.Tag — the tags of a doc comment.

A line is first freed of the comment's decoration: the opening and closing
marks and the star in front. A line that then begins with an at sign and a
letter opens a tag, and any other line that is not empty continues the tag
before it.
-/
import ViewContract.Text.Blank
import ViewContract.Text.Lines
import ViewContract.Text.Lowercase
import ViewContract.Text.Word

namespace ViewContract.Docblock

open ViewContract.Text

/-! ## 1. Decoration -/

/-- A text without `lead` at its start. -/
def dropLead (lead : Text) (t : Text) : Text :=
  (lead.isPrefixOf? t).getD t

/-- A text without `tail` at its end. -/
def dropTail (tail : Text) (t : Text) : Text :=
  if tail.isSuffixOf t then dropEnd tail.length t else t

/-- A line without the decoration of a comment. -/
def stripDecoration (line : Text) : Text :=
  let marked := dropTail "*/".toList (dropLead "/**".toList (trim line))
  trim (dropLead "*".toList (trim marked))

/-! ## 2. Tags -/

/-- A tag: its name in lower case, what follows the name with the continuation
lines joined by spaces, and the line on which it begins. -/
structure Tag where
  name : Text
  rest : Text
  line : Nat
  deriving DecidableEq, Repr

/-- The name and the rest of a line that opens a tag: an at sign, an ASCII letter,
and word characters or hyphens. -/
def openTag? : Text → Option (Text × Text)
  | '@' :: c :: rest =>
    if c.isAlpha then
      let inName (d : Char) : Bool := isWord d || d = '-'
      some (c :: rest.takeWhile inName, rest.dropWhile inName)
    else none
  | _ => none

/-- The tags of lines that are numbered from `number` on, and the text of the lines
before the first of them, which continue an earlier tag. -/
def tagsFrom (number : Nat) : List Text → Text × List Tag
  | [] => ([], [])
  | raw :: lines =>
    let line := stripDecoration raw
    let (continued, tags) := tagsFrom (number + 1) lines
    if line.isEmpty then (continued, tags)
    else match openTag? line with
      | some (name, rest) =>
        ([], { name := lower name, rest := rest ++ continued, line := number } :: tags)
      | none => (' ' :: line ++ continued, tags)

/-- The tags of a body; text before the first tag is no part of any. -/
def tags (body : Text) : List Tag :=
  (tagsFrom 1 (lines body)).2

end ViewContract.Docblock
