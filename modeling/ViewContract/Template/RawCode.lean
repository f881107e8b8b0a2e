/-
ViewContract.Template.RawCode — statements that run code.

A `do` statement is a block or a line statement whose first name is `do`. The
search goes over the tokens, so the word in text, in an output, in a comment or
in a raw block is no statement.
-/
import ViewContract.Template.Token

namespace ViewContract.Template

/-- Whether a token begins a statement. -/
def beginsStatement (t : Token) : Bool :=
  t.kind = .blockBegin || t.kind = .lineBegin

/-- Whether a token is the name of a statement that runs code. -/
def isDo (t : Token) : Bool :=
  t.kind = .name && t.text = "do".toList

/-- The line of the first `do` that begins a statement, where `opened` says whether
a statement has just begun. -/
def firstDoFrom (opened : Bool) : List Token → Option Nat
  | [] => none
  | t :: rest =>
    if t.kind = .blank then firstDoFrom opened rest
    else if opened && isDo t then some t.line
    else firstDoFrom (beginsStatement t) rest

/-- The line of the first `do` statement among tokens. -/
def firstDo (tokens : List Token) : Option Nat :=
  firstDoFrom false tokens

/-- The line of the first `do` statement of a template. A fault of the template is
only met if no such statement comes before it. -/
def findRawCode (env : Environment) (source : Text) : Except TokenFault (Option Nat) :=
  let s := scan env source
  match firstDo s.tokens, s.fault with
  | some line, _ => .ok (some line)
  | none, some fault => .error fault
  | none, none => .ok none

end ViewContract.Template
