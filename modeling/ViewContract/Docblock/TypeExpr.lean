/-
ViewContract.Docblock.TypeExpr — type expressions of doc comments.

A type expression ends at the first blank outside brackets, and is a union
whose members stand between bars outside brackets. A member is the null
marker, a kind under one of its names, an array in one of its notations, an
ignored pseudo-type, a union in parentheses, or a class name; a question mark
in front adds the null marker. Parentheses may nest as deep as the expression
has them: a stack that is too small for that is left out.
-/
import ViewContract.Grammar
import ViewContract.Text.Blank

namespace ViewContract.Docblock

open ViewContract.Text

/-! ## 1. Where a type ends -/

/-- The bracket that closes an opening one. -/
def closerOf? (c : Char) : Option Char :=
  if c = '<' then some '>'
  else if c = '\x7b' then some '\x7d'
  else if c = '(' then some ')'
  else if c = '[' then some ']'
  else none

/-- Whether a character is a closing bracket. -/
def isCloser (c : Char) : Bool :=
  c = '>' || c = '\x7d' || c = ')' || c = ']'

/-- The type that a text begins with and what follows it, where `due` are the
closing brackets that are still to come, the next one first. -/
def scanFrom (line : Nat) : List Char → Text → Except GrammarFault (Text × Text)
  | [], [] => .ok ([], [])
  | closer :: _, [] => .error (.unclosedBracket closer line)
  | due, c :: rest =>
    let withHead (split : Text × Text) : Text × Text := (c :: split.1, split.2)
    match closerOf? c with
    | some closer => withHead <$> scanFrom line (closer :: due) rest
    | none =>
      if isCloser c then
        match due with
        | closer :: due =>
          if closer = c then withHead <$> scanFrom line due rest
          else .error (.unbalancedBracket c line)
        | [] => .error (.unbalancedBracket c line)
      else if isBlank c && due.isEmpty then .ok ([], c :: rest)
      else withHead <$> scanFrom line due rest

/-- The type that a text begins with and what follows it. -/
def scanType (line : Nat) (t : Text) : Except GrammarFault (Text × Text) :=
  scanFrom line [] t

/-! ## 2. Unions -/

/-- How a character changes the depth of brackets. -/
def depthStep (c : Char) : Int :=
  if (closerOf? c).isSome then 1 else if isCloser c then -1 else 0

/-- The pieces of a text between bars at depth zero, where `depth` is the depth at
its start. -/
def splitUnionFrom (depth : Int) : Text → List Text
  | [] => [[]]
  | c :: rest =>
    let depth := depth + depthStep c
    match splitUnionFrom depth rest with
    | [] => [[c]]
    | piece :: pieces =>
      if c = '|' && depth = 0 then [] :: piece :: pieces else (c :: piece) :: pieces

/-- The pieces of a union between its bars, at least one. -/
def splitUnion (expr : Text) : List Text :=
  splitUnionFrom 0 expr

/-! ## 3. Members -/

/-- The kinds under their names in doc comments. -/
def kindNames : List (String × Kind) :=
  [("int", .int), ("integer", .int), ("float", .float), ("double", .float), ("string", .string),
    ("array", .array), ("list", .array), ("non-empty-array", .array), ("non-empty-list", .array)]

/-- The kind of a name in lower case. -/
def kindOfName? (name : Text) : Option Kind :=
  (kindNames.find? fun (word, _) => word.toList = name).map (·.2)

/-- The pseudo-types, which are not checked. -/
def pseudoTypes : List String :=
  ["mixed", "bool", "boolean", "true", "false", "callable", "iterable", "object", "resource",
    "scalar", "void"]

/-- Whether a name in lower case is a pseudo-type. -/
def isPseudoType (name : Text) : Bool :=
  pseudoTypes.any fun word => word.toList = name

/-- Whether a text begins with one character and ends with another. -/
def isEnclosed (first last : Char) (t : Text) : Bool :=
  t.head? = some first && t.getLast? = some last

/-- Whether a name in lower case is an array with item types in brackets. -/
def isGenericArray (name : Text) : Bool :=
  let base := ("non-empty-".toList.isPrefixOf? name).getD name
  ["array", "list"].any fun word =>
    (word.toList.isPrefixOf? base).any fun items =>
      isEnclosed '<' '>' items || isEnclosed '\x7b' '\x7d' items

/-- How a member reads that is not the null marker. -/
inductive Reading where
  | single (member : Member)
  /-- A union in parentheses. -/
  | group (inner : Text)
  | invalid
  deriving DecidableEq, Repr

/-- The text between the first and the last character. -/
def inside (t : Text) : Text :=
  (t.drop 1).dropLast

/-- How a member reads, by its first fitting form. -/
def readMember (member : Text) : Reading :=
  let name := lower member
  if name = "null".toList then .single .null
  else match kindOfName? name with
    | some kind => .single (.type (.primitive kind))
    | none =>
      if "[]".toList.isSuffixOf member || isGenericArray name then
        .single (.type (.primitive .array))
      else if isPseudoType name then .single (.ignored name)
      else if isEnclosed '(' ')' member then .group (inside member)
      else if isClassName member then .single (.type (.ofClass (normalizePath member)))
      else .invalid

/-- The members of a list of union pieces, where `members` reads a union in
parentheses. -/
def readPieces (members : Text → Except GrammarFault (List Member)) (expr : Text) (line : Nat) :
    List Text → Except GrammarFault (List Member)
  | [] => .ok []
  | piece :: pieces => do
    let member := trim piece
    if member.isEmpty then .error (.emptyMember expr line)
    else
      let (marks, member) := match member with
        | '?' :: rest => ([Member.null], rest)
        | _ => ([], member)
      let read ← match readMember member with
        | .single m => .ok [m]
        | .group inner => members inner
        | .invalid => .error (.invalidMember member line)
      let others ← readPieces members expr line pieces
      pure (marks ++ read ++ others)

/-- The members of a type expression whose parentheses are nested at most `fuel`
deep. -/
def membersWithin (line : Nat) : Nat → Text → Except GrammarFault (List Member)
  | 0, expr => .error (.invalidMember expr line)
  | fuel + 1, expr => readPieces (membersWithin line fuel) expr line (splitUnion expr)

/-- The members of a type expression, with the groups in it opened. -/
def members (line : Nat) (expr : Text) : Except GrammarFault (List Member) :=
  membersWithin line (expr.length + 1) expr

end ViewContract.Docblock
