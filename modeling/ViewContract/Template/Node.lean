/-
ViewContract.Template.Node — templates as nodes.

The part of the template language in which guards are written: text, outputs,
conditional parts and assignments, over expressions with names, constants,
calls and tests. A template outside this part has no nodes.

These are the rules of Jinja2's parser that are used. Blanks, comments and the
marks of raw blocks mean nothing. `or` is read before `and`, that before `not`,
and that before `is`, which asks for a test, perhaps negated, with or without
arguments; a sign stands before an operand, and an operand is a name, a constant
or a call of a name. The words `true`, `false` and `none`, with a capital letter
or without one, are constants. A part under `if` ends with `endif`, and `set`
binds one name.

Left out are comparisons, arithmetic, filters, attributes, subscripts, lists,
named arguments and calls of anything but a name, strings side by side, the
branches `elif` and `else`, and all other statements, among them the line
statements, which only the search for raw code looks at.

Every reading function returns what it read and the tokens that are left;
`fuel` bounds the steps of a reading.
-/
import ViewContract.Number.Reader
import ViewContract.Template.Quoted
import ViewContract.Template.Token
import ViewContract.Value.Basic

namespace ViewContract.Template

open ViewContract.Text

/-! ## 1. Expressions and nodes -/

/-- An expression. -/
inductive Expr where
  | const (value : Value)
  | name (name : Text)
  | neg (e : Expr)
  | not (e : Expr)
  | and (left right : Expr)
  | or (left right : Expr)
  | call (function : Text) (arguments : List Expr)
  | test (e : Expr) (test : Text) (arguments : List Expr)

/-- A part of a template. -/
inductive Node where
  | text (text : Text)
  | output (e : Expr)
  | assign (name : Text) (e : Expr)
  | branch (condition : Expr) (body : List Node)

/-! ## 2. Tokens that are read -/

/-- Whether a token has a meaning for the nodes: blanks, comments and the marks of
raw blocks have none. -/
def isMeaningful (t : Token) : Bool :=
  match t.kind with
  | .blank | .comment | .commentBegin | .commentEnd | .rawBegin | .rawEnd => false
  | _ => true

/-- Whether the first token is of a kind and has a text. -/
def startsWith (kind : TokenKind) (text : String) : List Token → Bool
  | t :: _ => t.kind = kind && t.text = text.toList
  | [] => false

/-- The tokens after one of a kind and text. -/
def expect (kind : TokenKind) (text : String) (tokens : List Token) : Option (List Token) :=
  if startsWith kind text tokens then some (tokens.drop 1) else none

/-- The tokens after one of a kind. -/
def expectKind (kind : TokenKind) : List Token → Option (List Token)
  | t :: rest => if t.kind = kind then some rest else none
  | [] => none

/-- The name at the start and the tokens after it. -/
def expectName : List Token → Option (Text × List Token)
  | t :: rest => if t.kind = .name then some (t.text, rest) else none
  | [] => none

/-! ## 3. Reading expressions -/

/-- The constant that a name stands for. -/
def constantOfName? (name : Text) : Option Value :=
  if name = "none".toList || name = "None".toList then some .null
  else if name = "true".toList || name = "True".toList then some (.bool true)
  else if name = "false".toList || name = "False".toList then some (.bool false)
  else none

/-- A name, a constant or a number at the start. -/
def readPrimary : List Token → Option (Expr × List Token)
  | [] => none
  | t :: rest =>
    match t.kind with
    | .name => some ((constantOfName? t.text).elim (.name t.text) .const, rest)
    | .string => do
      let text ← unquote t.text
      pure (.const (.string text), rest)
    | .integer => do
      let n ← Number.readInt? t.text
      pure (.const (.int n), rest)
    | .float => do
      let x ← Number.readDouble? t.text
      pure (.const (.float x), rest)
    | _ => none

mutual

/-- Alternatives, of which the first true one counts. -/
def readOr : Nat → List Token → Option (Expr × List Token)
  | 0, _ => none
  | fuel + 1, tokens => do
    let (left, rest) ← readAnd fuel tokens
    if startsWith .name "or" rest then
      let (right, rest) ← readOr fuel (rest.drop 1)
      pure (.or left right, rest)
    else pure (left, rest)

/-- Conditions that must all be true. -/
def readAnd : Nat → List Token → Option (Expr × List Token)
  | 0, _ => none
  | fuel + 1, tokens => do
    let (left, rest) ← readNot fuel tokens
    if startsWith .name "and" rest then
      let (right, rest) ← readAnd fuel (rest.drop 1)
      pure (.and left right, rest)
    else pure (left, rest)

/-- A condition, perhaps negated. -/
def readNot : Nat → List Token → Option (Expr × List Token)
  | 0, _ => none
  | fuel + 1, tokens =>
    if startsWith .name "not" tokens then do
      let (e, rest) ← readNot fuel (tokens.drop 1)
      pure (.not e, rest)
    else do
      let (e, rest) ← readSigned fuel tokens
      readTests fuel e rest

/-- An expression without tests, perhaps with a sign. -/
def readSigned : Nat → List Token → Option (Expr × List Token)
  | 0, _ => none
  | fuel + 1, tokens =>
    if startsWith .operator "-" tokens then do
      let (e, rest) ← readSigned fuel (tokens.drop 1)
      pure (.neg e, rest)
    else do
      let (e, rest) ← readPrimary tokens
      match e with
      | .name function =>
        if startsWith .operator "(" rest then do
          let (arguments, rest) ← readArguments fuel (rest.drop 1)
          pure (.call function arguments, rest)
        else pure (e, rest)
      | _ => pure (e, rest)

/-- The tests after an expression. -/
def readTests : Nat → Expr → List Token → Option (Expr × List Token)
  | 0, _, _ => none
  | fuel + 1, e, tokens =>
    if startsWith .name "is" tokens then do
      let afterIs := tokens.drop 1
      let negated := startsWith .name "not" afterIs
      let (test, rest) ← expectName (if negated then afterIs.drop 1 else afterIs)
      let (arguments, rest) ←
        if startsWith .operator "(" rest then readArguments fuel (rest.drop 1) else pure ([], rest)
      let tested := Expr.test e test arguments
      readTests fuel (if negated then .not tested else tested) rest
    else some (e, tokens)

/-- The arguments of a call up to its closing parenthesis. -/
def readArguments : Nat → List Token → Option (List Expr × List Token)
  | 0, _ => none
  | fuel + 1, tokens =>
    if startsWith .operator ")" tokens then some ([], tokens.drop 1)
    else do
      let (argument, rest) ← readOr fuel tokens
      if startsWith .operator "," rest then
        let (arguments, rest) ← readArguments fuel (rest.drop 1)
        pure (argument :: arguments, rest)
      else
        let rest ← expect .operator ")" rest
        pure ([argument], rest)

end

/-- An expression at the start. -/
def readExpr (tokens : List Token) : Option (Expr × List Token) :=
  readOr (6 * tokens.length + 6) tokens

/-! ## 4. Reading nodes -/

/-- Whether the first tokens end a conditional part. -/
def startsEnd : List Token → Bool
  | t :: rest => t.kind = .blockBegin && startsWith .name "endif" rest
  | [] => false

/-- The nodes up to the end of the tokens or to the end of a conditional part. -/
def readNodes : Nat → List Token → Option (List Node × List Token)
  | _, [] => some ([], [])
  | 0, _ => none
  | fuel + 1, t :: rest =>
    match t.kind with
    | .data => do
      let (nodes, rest) ← readNodes fuel rest
      pure (.text t.text :: nodes, rest)
    | .outputBegin => do
      let (e, rest) ← readExpr rest
      let rest ← expectKind .outputEnd rest
      let (nodes, rest) ← readNodes fuel rest
      pure (.output e :: nodes, rest)
    | .blockBegin =>
      if startsEnd (t :: rest) then some ([], t :: rest)
      else if startsWith .name "set" rest then do
        let (name, rest) ← expectName (rest.drop 1)
        let rest ← expect .operator "=" rest
        let (e, rest) ← readExpr rest
        let rest ← expectKind .blockEnd rest
        let (nodes, rest) ← readNodes fuel rest
        pure (.assign name e :: nodes, rest)
      else do
        let rest ← expect .name "if" rest
        let (condition, rest) ← readExpr rest
        let rest ← expectKind .blockEnd rest
        let (body, rest) ← readNodes fuel rest
        let rest ← expectKind .blockBegin rest
        let rest ← expect .name "endif" rest
        let rest ← expectKind .blockEnd rest
        let (nodes, rest) ← readNodes fuel rest
        pure (.branch condition body :: nodes, rest)
    | _ => none

/-- The nodes of all tokens. -/
def Node.ofTokens? (tokens : List Token) : Option (List Node) := do
  let meaningful := tokens.filter isMeaningful
  let (nodes, rest) ← readNodes (meaningful.length + 1) meaningful
  if rest.isEmpty then some nodes else none

end ViewContract.Template
