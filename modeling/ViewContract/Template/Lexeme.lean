/-
ViewContract.Template.Lexeme — the lexemes inside the tags of a template.

Each function says how many characters of a text its kind of lexeme takes, and
takes as many as it can. `lexeme?` tries the kinds in order: a number with a
fraction or an exponent before a whole number, a number before a name, and
operators last, the longer ones first.
-/
import ViewContract.Text.Basic
import ViewContract.Text.Blank
import ViewContract.Text.Digit
import ViewContract.Text.Word

namespace ViewContract.Template

open ViewContract.Text

/-- The kinds of token in a template. -/
inductive TokenKind where
  | data
  | rawBegin
  | rawEnd
  | commentBegin
  | comment
  | commentEnd
  | blockBegin
  | blockEnd
  | outputBegin
  | outputEnd
  | lineBegin
  | lineEnd
  | blank
  | float
  | integer
  | string
  | name
  | operator
  deriving DecidableEq, Repr

/-! ## 1. Numbers -/

/-- How far digits go on from a digit on, with single underscores between them. -/
def digitsTail (isDigit : Char → Bool) : Text → Nat
  | [] => 0
  | '_' :: rest =>
    match rest with
    | [] => 0
    | c :: rest => if isDigit c then 2 + digitsTail isDigit rest else 0
  | c :: rest => if isDigit c then 1 + digitsTail isDigit rest else 0

/-- How many characters of grouped decimal digits a text begins with. -/
def decimalRun : Text → Nat
  | [] => 0
  | c :: rest => if isDecimalDigit c then 1 + digitsTail isDecimalDigit rest else 0

/-- A point and grouped digits; zero if there are none. -/
def fractionRun : Text → Nat
  | '.' :: rest => if decimalRun rest = 0 then 0 else 1 + decimalRun rest
  | _ => 0

/-- The letter of an exponent, an optional sign and grouped digits; zero if there
are none. -/
def exponentRun : Text → Nat
  | [] => 0
  | e :: rest =>
    if e = 'e' || e = 'E' then
      let sign := match rest with
        | c :: _ => if c = '+' || c = '-' then 1 else 0
        | [] => 0
      let digits := decimalRun (rest.drop sign)
      if digits = 0 then 0 else 1 + sign + digits
    else 0

/-- A number with a fraction, an exponent or both, not after a point. -/
def floatLength? (before : Option Char) (t : Text) : Option Nat :=
  let whole := decimalRun t
  if whole = 0 || before = some '.' then none
  else
    let fraction := fractionRun (t.drop whole)
    let exponent := exponentRun (t.drop (whole + fraction))
    if fraction + exponent = 0 then none else some (whole + fraction + exponent)

/-- Whether a character is a decimal digit or a letter of base sixteen. -/
def isHexPart (c : Char) : Bool :=
  isDecimalDigit c || isHexDigit c

/-- A whole number: with the prefix of a base, without leading zeros, or all zeros. -/
def integerLength? : Text → Option Nat
  | [] => none
  | c :: rest =>
    let based? (letter : Char) (isDigit : Char → Bool) : Option Nat :=
      match rest with
      | d :: body =>
        let digits := digitsTail isDigit body
        if c = '0' && d.toLower = letter && 0 < digits then some (2 + digits) else none
      | [] => none
    based? 'b' (fun d => d = '0' || d = '1') <|>
    based? 'o' (fun d => '0' ≤ d && d ≤ '7') <|>
    based? 'x' isHexPart <|>
    (if '1' ≤ c && c ≤ '9' then some (1 + digitsTail isDecimalDigit rest) else none) <|>
    (if c = '0' then some (1 + digitsTail (· = '0') rest) else none)

/-! ## 2. Names, strings and operators -/

/-- A name. -/
def nameLength? (t : Text) : Option Nat :=
  let length := (t.takeWhile isNamePart).length
  if length = 0 then none else some length

/-- The characters up to and with the quote that ends a string; a backslash takes
the next character with it. -/
def stringTail? (quote : Char) : Text → Option Nat
  | [] => none
  | '\\' :: rest =>
    match rest with
    | [] => none
    | _ :: rest => (stringTail? quote rest).map (· + 2)
  | c :: rest => if c = quote then some 1 else (stringTail? quote rest).map (· + 1)

/-- A text between quotes of one kind. -/
def stringLength? : Text → Option Nat
  | '\'' :: rest => (stringTail? '\'' rest).map (· + 1)
  | '"' :: rest => (stringTail? '"' rest).map (· + 1)
  | _ => none

/-- The operators of two characters. -/
def longOperators : List String := ["//", "**", "==", "!=", ">=", "<="]

/-- The operators of one character. -/
def shortOperators : Text := "+-/*%~[]()\x7b\x7d><=.:|,;".toList

/-- An operator. -/
def operatorLength? (t : Text) : Option Nat :=
  if longOperators.any (·.toList.isPrefixOf t) then some 2
  else match t with
    | c :: _ => if shortOperators.contains c then some 1 else none
    | [] => none

/-- A run of blanks. -/
def blankLength? (t : Text) : Option Nat :=
  let length := (t.takeWhile isBlank).length
  if length = 0 then none else some length

/-- The lexeme that a text begins with: its kind and length, where `before` is the
character in front of it. -/
def lexeme? (before : Option Char) (t : Text) : Option (TokenKind × Nat) :=
  (blankLength? t).map (.blank, ·) <|>
  (floatLength? before t).map (.float, ·) <|>
  (integerLength? t).map (.integer, ·) <|>
  (nameLength? t).map (.name, ·) <|>
  (stringLength? t).map (.string, ·) <|>
  (operatorLength? t).map (.operator, ·)

end ViewContract.Template
