/-
ViewContract.Signature.Token — the tokens of a parameter list.

Blanks separate tokens and are dropped. At each place the kinds are tried in
the order of `matchers`, and the first that matches wins with the longest text
it can take. The scan is a recursion over the body that carries how many
characters the last token still covers, so every token is a piece of the body
at its position by construction.
-/
import ViewContract.Grammar
import ViewContract.Text.Identifier
import ViewContract.Text.Digit
import ViewContract.Text.Blank

namespace ViewContract.Signature

open ViewContract.Text

/-! ## 1. Kinds -/

/-- The kinds of token. -/
inductive TokenKind where
  | variableName
  | dollar
  | number
  | string
  | name
  | doubleColon
  | arrow
  | punctuation
  deriving DecidableEq, Repr

/-- A token: its kind, its text and where that begins in the body. -/
structure Token where
  kind : TokenKind
  text : Text
  position : Nat
  deriving DecidableEq, Repr

/-! ## 2. Lengths

Each function says how many characters of a text its kind of token takes;
`none` means that the text does not begin with such a token. -/

/-- A dollar sign and an identifier. -/
def variableLength? : Text → Option Nat
  | '$' :: rest => (leadingIdentifier? rest).map (·.length + 1)
  | _ => none

/-- A dollar sign. -/
def dollarLength? : Text → Option Nat
  | '$' :: _ => some 1
  | _ => none

/-- A zero, a letter in either case, and digits or underscores after it. -/
def prefixedLength? (letter : Char) (isDigit : Char → Bool) : Text → Option Nat
  | '0' :: c :: rest =>
    let count := (rest.takeWhile fun d => isDigit d || d = '_').length
    if c.toLower = letter && 0 < count then some (count + 2) else none
  | _ => none

/-- The digits and underscores from a digit on; zero if there is no digit. -/
def digitRun : Text → Nat
  | [] => 0
  | c :: rest =>
    if isDecimalDigit c then
      1 + (rest.takeWhile fun d => isDecimalDigit d || d = '_').length
    else 0

/-- An exponent: a letter, an optional sign and digits; zero if there is none. -/
def exponentLength : Text → Nat
  | [] => 0
  | e :: rest =>
    if e = 'e' || e = 'E' then
      let sign := match rest with
        | c :: _ => if c = '+' || c = '-' then 1 else 0
        | [] => 0
      let count := ((rest.drop sign).takeWhile isDecimalDigit).length
      if 0 < count then 1 + sign + count else 0
    else 0

/-- A decimal with digits after its point. -/
def pointedLength? (t : Text) : Option Nat :=
  let whole := digitRun t
  match t.drop whole with
  | '.' :: rest =>
    let fraction := digitRun rest
    if fraction = 0 then none
    else
      let length := whole + 1 + fraction
      some (length + exponentLength (t.drop length))
  | _ => none

/-- A decimal with a point at its end or without one. -/
def wholeLength? (t : Text) : Option Nat :=
  let whole := digitRun t
  if whole = 0 then none
  else
    let length := match t.drop whole with
      | '.' :: _ => whole + 1
      | _ => whole
    some (length + exponentLength (t.drop length))

/-- A number: with a prefix, or a decimal. -/
def numberLength? (t : Text) : Option Nat :=
  prefixedLength? 'x' isHexDigit t <|>
  prefixedLength? 'b' (fun c => c = '0' || c = '1') t <|>
  prefixedLength? 'o' (fun c => '0' ≤ c && c ≤ '7') t <|>
  pointedLength? t <|>
  wholeLength? t

/-- The characters up to and with the quote that ends a string. A backslash takes
the next character with it, which must not be a line feed. -/
def stringTail? (quote : Char) : Text → Option Nat
  | [] => none
  | '\\' :: rest =>
    match rest with
    | [] => none
    | c :: rest => if c = '\n' then none else (stringTail? quote rest).map (· + 2)
  | c :: rest => if c = quote then some 1 else (stringTail? quote rest).map (· + 1)

/-- A text between quotes of one kind. -/
def stringLength? : Text → Option Nat
  | '\'' :: rest => (stringTail? '\'' rest).map (· + 1)
  | '"' :: rest => (stringTail? '"' rest).map (· + 1)
  | _ => none

/-- Two colons. -/
def doubleColonLength? : Text → Option Nat
  | ':' :: ':' :: _ => some 2
  | _ => none

/-- An arrow. -/
def arrowLength? : Text → Option Nat
  | '=' :: '>' :: _ => some 2
  | _ => none

/-- The characters that are tokens on their own. -/
def punctuation : Text := "?,=()[]+-".toList

/-- One of the characters that are tokens on their own. -/
def punctuationLength? : Text → Option Nat
  | c :: _ => if punctuation.contains c then some 1 else none
  | [] => none

/-- The kinds in the order in which they are tried. -/
def matchers : List (TokenKind × (Text → Option Nat)) :=
  [(.variableName, variableLength?), (.dollar, dollarLength?), (.number, numberLength?),
    (.string, stringLength?), (.name, classNameLength?), (.doubleColon, doubleColonLength?),
    (.arrow, arrowLength?), (.punctuation, punctuationLength?)]

/-- The kind and length of the token that a text begins with. -/
def tokenLength? (t : Text) : Option (TokenKind × Nat) :=
  matchers.findSome? fun (kind, length?) => (length? t).map fun length => (kind, length)

/-! ## 3. The scan -/

/-- The tokens of the rest of a body from a position on, where the first
`covered` characters of the rest belong to the token before. -/
def tokensFrom (covered position : Nat) : Text → Except GrammarFault (List Token)
  | [] => .ok []
  | c :: rest =>
    match covered with
    | covered + 1 => tokensFrom covered (position + 1) rest
    | 0 =>
      if isBlank c then tokensFrom 0 (position + 1) rest
      else match tokenLength? (c :: rest) with
        | none => .error (.unexpectedCharacter c position)
        | some (kind, length) => do
          let tokens ← tokensFrom (length - 1) (position + 1) rest
          pure ({ kind, text := (c :: rest).take length, position } :: tokens)

/-- The tokens of a body. -/
def tokenize (body : Text) : Except GrammarFault (List Token) :=
  tokensFrom 0 0 body

end ViewContract.Signature
