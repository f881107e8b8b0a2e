/-
ViewContract.Template.Token — the tokens of a template.

The scan goes over the template once and carries where it is: in text, in a
comment, in a raw block, or in a tag with the brackets that are still open.
Like every scan here it carries how many characters the last token still
covers. The tokens before a fault are kept, since a reader may stop before it.

These are the rules of Jinja2's lexer that are used. Carriage returns, with a
line feed behind them or without one, become line feeds, and a line feed at the
end of the template is left out. Of the marks
that begin a tag, a comment or a line statement the longest counts, and a raw
block before them. Text that nothing opens is data; a comment and a raw block
last up to the first mark that ends them, and a fault tells that there is none.
In a tag brackets must match, and while one is open no mark ends the tag. A
minus beside a mark takes the blanks on its other side, and a plus takes none.
A token is on the line of its first character.

The options beyond the marks have the values that they have by default: no line
feed is dropped behind a block (`trim_blocks`), no blanks are in front of one
(`lstrip_blocks`), a line break stays a line feed (`newline_sequence`,
`keep_trailing_newline`), and no mark begins a comment that takes up the rest of
a line (`line_comment_prefix`).
-/
import ViewContract.Template.Delimiter
import ViewContract.Text.Lines
import ViewContract.Text.Shown

namespace ViewContract.Template

open ViewContract.Text

/-! ## 1. Tokens and faults -/

/-- A token with the line it is on. -/
structure Token where
  line : Nat
  kind : TokenKind
  text : Text
  deriving DecidableEq, Repr

/-- Why a template has no further tokens. -/
inductive TokenCause where
  | unexpectedCharacter (c : Char) (position : Nat)
  | unexpectedBracket (bracket : Char) (expected : Option Char)
  | unclosedComment
  | unclosedRaw
  deriving DecidableEq, Repr

/-- A cause with its line. -/
structure TokenFault where
  line : Nat
  cause : TokenCause
  deriving DecidableEq, Repr

/-- The wording of a fault. -/
def TokenCause.message : TokenCause → String
  | .unexpectedCharacter c position => s!"unexpected char {shownString [c]} at {position}"
  | .unexpectedBracket bracket none => s!"unexpected '{bracket}'"
  | .unexpectedBracket bracket (some expected) => s!"unexpected '{bracket}', expected '{expected}'"
  | .unclosedComment => "Missing end of comment tag"
  | .unclosedRaw => "Missing end of raw directive"

/-- The tokens of a template up to its end or to the first fault. -/
structure Scan where
  tokens : List Token := []
  fault : Option TokenFault := none
  deriving DecidableEq, Repr

/-- A scan with tokens before it; an empty text and an empty comment are no tokens. -/
def Scan.after (scan : Scan) (tokens : List Token) : Scan :=
  let keep (t : Token) : Bool := !(t.text.isEmpty && (t.kind = .data || t.kind = .comment))
  { scan with tokens := tokens.filter keep ++ scan.tokens }

/-! ## 2. Places -/

/-- The tags, by what ends them. -/
inductive TagKind where
  | block
  | output
  | line
  deriving DecidableEq, Repr

/-- Where a scan is. Text that has been read is kept last character first; of a tag
the brackets that are due to close are kept, the next one first. -/
inductive Place where
  | text (read : Text)
  | comment (read : Text)
  | raw (read : Text)
  | tag (kind : TagKind) (due : List Char)
  deriving DecidableEq, Repr

/-- Where a scan is after an opening. -/
def Place.ofOpening : TokenKind → Place
  | .rawBegin => .raw []
  | .commentBegin => .comment []
  | .outputBegin => .tag .output []
  | .lineBegin => .tag .line []
  | _ => .tag .block []

/-- Text before an opening with a sign: a minus takes the blanks at its end. -/
def keptText (read : Text) (sign : Option Char) : Text :=
  if sign = some '-' then trimEnd read.reverse else read.reverse

/-- The end of a tag at the start of a text, when no bracket is open. -/
def tagEnd? (env : Environment) (kind : TagKind) (t : Text) : Option (TokenKind × Nat) :=
  match kind with
  | .block => (signedEndLength? env.delimiters.blockEnd t).map (.blockEnd, ·)
  | .output => (plainEndLength? env.delimiters.variableEnd t).map (.outputEnd, ·)
  | .line => (lineEndLength? t).map (.lineEnd, ·)

/-- The bracket that closes an opening operator. -/
def bracketCloser? (operator : Text) : Option Char :=
  match operator with
  | ['('] => some ')'
  | ['['] => some ']'
  | ['\x7b'] => some '\x7d'
  | _ => none

/-- The brackets that are due after an operator, or why it cannot stand here. -/
def dueAfter (due : List Char) (operator : Text) : Except TokenCause (List Char) :=
  match bracketCloser? operator with
  | some closer => .ok (closer :: due)
  | none =>
    match operator with
    | [c] =>
      if c = ')' || c = ']' || c = '\x7d' then
        match due with
        | [] => .error (.unexpectedBracket c none)
        | closer :: due =>
          if closer = c then .ok due else .error (.unexpectedBracket c (some closer))
      else .ok due
    | _ => .ok due

/-! ## 3. The scan -/

/-- One step of a scan that is not in the middle of a token: the tokens that begin
here, how many characters the last of them takes, and where the scan is then. A
mark may be empty, so a step can take nothing and only change the place. -/
structure Step where
  tokens : List Token
  length : Nat
  place : Place
  deriving DecidableEq, Repr

/-- The step at a character in text, in a comment or in a raw block. -/
def stepInText (env : Environment) (before : Option Char) (line : Nat) (read : Text)
    (c : Char) (rest : Text) : Step :=
  match opening? env before (c :: rest) with
  | none => { tokens := [], length := 1, place := .text (c :: read) }
  | some o =>
    { tokens := [⟨line, .data, keptText read o.sign⟩,
        ⟨line + lineFeeds read, o.kind, (c :: rest).take o.length⟩]
      length := o.length
      place := .ofOpening o.kind }

/-- The step at a character of a comment. -/
def stepInComment (env : Environment) (line : Nat) (read : Text) (c : Char) (rest : Text) : Step :=
  match signedEndLength? env.commentEnd (c :: rest) with
  | none => { tokens := [], length := 1, place := .comment (c :: read) }
  | some length =>
    { tokens := [⟨line, .comment, read.reverse⟩,
        ⟨line + lineFeeds read, .commentEnd, (c :: rest).take length⟩]
      length
      place := .text [] }

/-- The step at a character of a raw block. -/
def stepInRaw (env : Environment) (line : Nat) (read : Text) (c : Char) (rest : Text) : Step :=
  match rawEnd? env (c :: rest) with
  | none => { tokens := [], length := 1, place := .raw (c :: read) }
  | some o =>
    { tokens := [⟨line, .data, keptText read o.sign⟩,
        ⟨line + lineFeeds read, .rawEnd, (c :: rest).take o.length⟩]
      length := o.length
      place := .text [] }

/-- The step at a character of a tag. -/
def stepInTag (env : Environment) (before : Option Char) (line position : Nat) (kind : TagKind)
    (due : List Char) (c : Char) (rest : Text) : Except TokenCause Step :=
  let t := c :: rest
  match if due.isEmpty then tagEnd? env kind t else none with
  | some (token, length) =>
    .ok { tokens := [⟨line, token, t.take length⟩], length, place := .text [] }
  | none =>
    match lexeme? before t with
    | none => .error (.unexpectedCharacter c position)
    | some (token, length) => do
      let due ← if token = .operator then dueAfter due (t.take length) else pure due
      pure { tokens := [⟨line, token, t.take length⟩], length, place := .tag kind due }

/-- The step at a character. -/
def step (env : Environment) (before : Option Char) (line position : Nat) (place : Place)
    (c : Char) (rest : Text) : Except TokenCause Step :=
  match place with
  | .text read => .ok (stepInText env before line read c rest)
  | .comment read => .ok (stepInComment env line read c rest)
  | .raw read => .ok (stepInRaw env line read c rest)
  | .tag kind due => stepInTag env before line position kind due c rest

/-- The line after tokens that begin on the given one. -/
def lineAfter (line : Nat) (tokens : List Token) : Nat :=
  tokens.getLast?.elim line fun last => last.line + lineFeeds last.text

/-- How a scan goes on: how many characters the last token takes, the line after it,
and where the scan is. -/
structure Onward where
  length : Nat
  line : Nat
  place : Place
  deriving DecidableEq, Repr

/-- What a scan finds at one character, and how it goes on if there is no fault. -/
structure Turn where
  found : Scan := {}
  onward : Option Onward := none
  deriving DecidableEq, Repr

/-- The steps at a character up to the first that takes something. Of the steps that
take nothing at most two come in a row, the end of a tag and an opening; where
more would follow they would never stop, and `turns` ends them. -/
def turnAt (env : Environment) (before : Option Char) (position : Nat) (c : Char) (rest : Text) :
    Nat → Nat → Place → Turn
  | 0, _, _ => {}
  | turns + 1, line, place =>
    match step env before line position place c rest with
    | .error cause => { found := { fault := some ⟨line, cause⟩ } }
    | .ok s =>
      let line := lineAfter line s.tokens
      let later : Turn :=
        if 0 < s.length then { onward := some ⟨s.length, line, s.place⟩ }
        else turnAt env before position c rest turns line s.place
      { later with found := later.found.after s.tokens }

/-- The tokens that the end of a template adds. A comment or a raw block that is not
closed is a fault, unless nothing stands in it. -/
def atEnd (env : Environment) (line : Nat) : Place → Scan
  | .text read => ({} : Scan).after [⟨line, .data, read.reverse⟩]
  | .comment read => { fault := if read.isEmpty then none else some ⟨line, .unclosedComment⟩ }
  | .raw read => { fault := if read.isEmpty then none else some ⟨line, .unclosedRaw⟩ }
  | .tag kind due =>
    match if due.isEmpty then tagEnd? env kind [] else none with
    | some (token, _) => { tokens := [⟨line, token, []⟩] }
    | none => {}

/-- The tokens of the rest of a template, where `line` is the line of the next token
and the first `covered` characters belong to the last one. -/
def scanFrom (env : Environment) (before : Option Char) (line position covered : Nat)
    (place : Place) : Text → Scan
  | [] => atEnd env line place
  | c :: rest =>
    match covered with
    | covered + 1 => scanFrom env (some c) line (position + 1) covered place rest
    | 0 =>
      let turn := turnAt env before position c rest 3 line place
      match turn.onward with
      | none => turn.found
      | some o =>
        (scanFrom env (some c) o.line (position + 1) (o.length - 1) o.place rest).after
          turn.found.tokens

/-- A template as it is scanned: with line feeds for line breaks, and without the
line feed at its end. -/
def prepare (source : Text) : Text :=
  let t := unifyLineFeeds source
  if t.getLast? = some '\n' then t.dropLast else t

/-- The tokens of a template. -/
def scan (env : Environment) (source : Text) : Scan :=
  scanFrom env none 1 0 0 (.text []) (prepare source)

end ViewContract.Template
