/-
ViewContract.Template.Delimiter — what begins and ends the parts of a template.

Outside tags a template is text up to the next opening: a raw block, or one of
the tags, of which the one with the longest mark is tried first. An opening and
an ending may carry a sign: with a minus the blanks on the other side of the
mark go too.
-/
import ViewContract.Guard.Basic
import ViewContract.Ordering
import ViewContract.Template.Lexeme

namespace ViewContract.Template

open ViewContract.Text

/-! ## 1. Environments -/

/-- The marks of a template and how undefined variables are treated. The other options of an
environment have their default values, and outputs are not escaped (`autoescape`). -/
structure Environment where
  delimiters : Delimiters := {}
  commentStart : Text := "\x7b#".toList
  commentEnd : Text := "#\x7d".toList
  /-- What begins a statement that takes up a line, if there are such. -/
  lineMark : Option Text := none
  /-- Writing out an undefined variable is an error. -/
  strict : Bool := false
  deriving DecidableEq, Repr

/-! ## 2. Openings -/

/-- An opening: its kind, its length, and the sign after its mark. -/
structure Opening where
  kind : TokenKind
  length : Nat
  sign : Option Char
  deriving DecidableEq, Repr

/-- The sign that a text begins with. -/
def sign? (t : Text) : Option Char :=
  t.head?.filter fun c => c = '-' || c = '+'

/-- The number of blanks that a text begins with. -/
def blankRun (t : Text) : Nat :=
  (t.takeWhile isBlank).length

/-- What `match?` finds after at most `run` characters of a text, as late as it finds
anything, and after how many. A mark may itself begin with a blank, and then the
last of the blanks before it are its own. -/
def latest? {α : Type} (match? : Text → Option α) (t : Text) : Nat → Option (Nat × α)
  | 0 => (match? t).map (0, ·)
  | run + 1 =>
    match match? (t.drop (run + 1)) with
    | some a => some (run + 1, a)
    | none => latest? match? t run

/-- How many characters a mark takes at the start of a text. -/
def markLength? (mark t : Text) : Option Nat :=
  if mark.isPrefixOf t then some mark.length else none

/-- An ending with a minus before it takes the blanks after it, and an ending alone
takes only itself. -/
def plainEndLength? (mark t : Text) : Option Nat :=
  match t with
  | '-' :: rest =>
    match markLength? mark rest with
    | some length => some (1 + length + blankRun (rest.drop length))
    | none => markLength? mark t
  | _ => markLength? mark t

/-- An ending that may also have a plus before it. -/
def signedEndLength? (mark t : Text) : Option Nat :=
  match t with
  | '+' :: rest =>
    match markLength? mark rest with
    | some length => some (1 + length)
    | none => markLength? mark t
  | _ => plainEndLength? mark t

/-- A block mark, an optional sign, a word among blanks, and an ending of the block. -/
def wordBlock? (mark word : Text) (endLength? : Text → Option Nat) (kind : TokenKind) (t : Text) :
    Option Opening := do
  let start ← markLength? mark t
  let sign := sign? (t.drop start)
  let beforeWord := start + sign.toList.length
  let wordStart := beforeWord + blankRun (t.drop beforeWord)
  let wordLength ← markLength? word (t.drop wordStart)
  let afterWord := t.drop (wordStart + wordLength)
  let (gap, length) ← latest? endLength? afterWord (blankRun afterWord)
  pure { kind, length := wordStart + wordLength + gap + length, sign }

/-- The beginning of a raw block. -/
def rawBegin? (env : Environment) (t : Text) : Option Opening :=
  wordBlock? env.delimiters.blockStart "raw".toList
    (plainEndLength? env.delimiters.blockEnd) .rawBegin t

/-- The end of a raw block. -/
def rawEnd? (env : Environment) (t : Text) : Option Opening :=
  wordBlock? env.delimiters.blockStart "endraw".toList
    (signedEndLength? env.delimiters.blockEnd) .rawEnd t

/-- A mark with an optional sign after it, which begins a tag. -/
def tagBegin? (kind : TokenKind) (mark t : Text) : Option Opening := do
  let length ← markLength? mark t
  let sign := sign? (t.drop length)
  pure { kind, length := length + sign.toList.length, sign }

/-- The mark of a line statement after spaces, tabs and vertical tabs. -/
def lineBegin? (mark t : Text) : Option Opening := do
  let run := (t.takeWhile fun c => c = ' ' || c = '\t' || c = '\x0b').length
  let (indent, opening) ← latest? (tagBegin? .lineBegin mark) t run
  pure { opening with length := indent + opening.length }

/-- The marks of tags with their kinds, the longest first. -/
def tagMarks (env : Environment) : List (TokenKind × Text) :=
  sortOn (fun (_, mark) => -(mark.length : Int))
    ([(.outputBegin, env.delimiters.variableStart)] ++
      (env.lineMark.map fun mark => (.lineBegin, mark)).toList ++
      [(.commentBegin, env.commentStart), (.blockBegin, env.delimiters.blockStart)])

/-- The opening that a text begins with; line statements begin only at the start of
a line, that is after `before`. -/
def opening? (env : Environment) (before : Option Char) (t : Text) : Option Opening :=
  rawBegin? env t <|> (tagMarks env).findSome? fun (kind, mark) =>
    match kind with
    | .lineBegin => if before.all (· = '\n') then lineBegin? mark t else none
    | kind => tagBegin? kind mark t

/-- The end of a line statement: the blanks up to the last line feed among them, or
up to the end of the template. -/
def lineEndLength? (t : Text) : Option Nat :=
  let blanks := t.takeWhile isBlank
  if blanks.length = t.length then some t.length
  else
    let length := (dropEndWhile (· ≠ '\n') blanks).length
    if length = 0 then none else some length

end ViewContract.Template
