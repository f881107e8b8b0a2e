/-
ViewContract.Text.Lines — the lines of a text.

A line ends at a line feed, a carriage return (with the line feed after it),
a vertical tab, a form feed, one of the file, group and record separators,
the next-line character, or the line and paragraph separators.
-/
import ViewContract.Text.Basic

namespace ViewContract.Text

/-- Whether a character ends a line. -/
def isLineBreak (c : Char) : Bool :=
  c = '\n' || c = '\r' || c = '\x0b' || c = '\x0c' || c = '\x1c' || c = '\x1d' || c = '\x1e' ||
    c = '\u0085' || c = '\u2028' || c = '\u2029'

/-- A text with each pair of carriage return and line feed made one line feed. -/
def mergeReturns : Text → Text
  | [] => []
  | '\r' :: '\n' :: rest => '\n' :: mergeReturns rest
  | c :: rest => c :: mergeReturns rest

/-- The pieces between line breaks, where `line` is what has been read of the
current one, last character first. A break at the very end opens no line. -/
def linesFrom (line : Text) : Text → List Text
  | [] => if line.isEmpty then [] else [line.reverse]
  | c :: rest =>
    if isLineBreak c then line.reverse :: linesFrom [] rest else linesFrom (c :: line) rest

/-- The lines of a text, without their breaks. -/
def lines (t : Text) : List Text :=
  linesFrom [] (mergeReturns t)

/-- A text in which every line break of the three usual forms is a line feed. -/
def unifyLineFeeds (t : Text) : Text :=
  (mergeReturns t).map fun c => if c = '\r' then '\n' else c

end ViewContract.Text
