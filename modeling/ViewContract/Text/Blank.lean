/-
ViewContract.Text.Blank — blank characters and trimming.

A character is blank if it separates words or lines: the ASCII blanks, the
four information separators, the next-line character and the separators of
the Unicode general category Z (version 14), with the zero-width characters
left out.
-/
import ViewContract.Text.Basic
import ViewContract.Text.Ranges

namespace ViewContract.Text

/-- The blank characters. -/
def blankRanges : Ranges := [
  (9, 13), (28, 32), (133, 133), (160, 160), (5760, 5760), (8192, 8202), (8232, 8233),
  (8239, 8239), (8287, 8287), (12288, 12288)]

/-- Whether a character is blank. -/
def isBlank (c : Char) : Bool :=
  blankRanges.contains c.toNat

/-- A text without the blanks at its start. -/
def trimStart (t : Text) : Text :=
  t.dropWhile isBlank

/-- A text without the blanks at its end. -/
def trimEnd (t : Text) : Text :=
  dropEndWhile isBlank t

/-- A text without the blanks at either end. -/
def trim (t : Text) : Text :=
  trimEnd (trimStart t)

end ViewContract.Text
