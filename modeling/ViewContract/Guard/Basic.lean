/-
ViewContract.Guard.Basic — the guards of a declaration.

A declaration becomes one guard for the presence of its variable and, if it
has a type, one for the type. A guard is data; here it is written as a
statement in the template's own delimiters, and the template modules run such
statements against a context.
-/
import ViewContract.Declaration

namespace ViewContract

open Text

/-! ## 1. Guards -/

/-- A check that runs before the rest of a template. -/
inductive Guard where
  /-- The variable is there and is not null. -/
  | present (name : Text)
  /-- The variable gets a default if it is missing or null. -/
  | fallback (name : Text) (default : Literal)
  /-- The variable is null or of a kind. -/
  | ofKind (name : Text) (kind : Kind)
  /-- The variable is null or an instance of a class. -/
  | ofClass (name : Text) (path : Text)
  deriving DecidableEq, Repr

/-- The guard for the presence of a variable. -/
def Declaration.presenceGuard (d : Declaration) : Guard :=
  if d.required then .present d.name else .fallback d.name (d.default.getD .null)

/-- The guards for the type of a variable, at most one. -/
def Declaration.typeGuards (d : Declaration) : List Guard :=
  match d.type with
  | none => []
  | some (.primitive kind) => [.ofKind d.name kind]
  | some (.ofClass path) => [.ofClass d.name path]

/-- The guards of a declaration, in the order in which they run. -/
def Declaration.guards (d : Declaration) : List Guard :=
  d.presenceGuard :: d.typeGuards

/-! ## 2. Literals as template text -/

/-- One character of a quoted text in a template. -/
def quotedChar (c : Char) : Text :=
  if c = '\\' then ['\\', '\\']
  else if c = '"' then ['\\', '"']
  else if c = '\n' then ['\\', 'n']
  else if c = '\r' then ['\\', 'r']
  else if c = '\t' then ['\\', 't']
  else if c.toNat < 0x20 || c.toNat = 0x7f then '\\' :: 'x' :: hexDigits 2 c.toNat
  else [c]

/-- A text between double quotes, as the template language reads it. -/
def quoted (t : Text) : Text :=
  '"' :: t.flatMap quotedChar ++ ['"']

/-- The template text of a literal. -/
def Literal.source : Literal → Except RangeFault Text
  | .null => .ok "none".toList
  | .int n => (Number.decimalText? n).mapError fun _ => .digits
  | .float x => .ok x.text
  | .string t => .ok (quoted t)

/-! ## 3. Statements -/

/-- The delimiters of blocks and outputs in a template. -/
structure Delimiters where
  blockStart : Text := "\x7b%".toList
  blockEnd : Text := "%\x7d".toList
  variableStart : Text := "\x7b\x7b".toList
  variableEnd : Text := "\x7d\x7d".toList
  deriving DecidableEq, Repr

/-- The function that reports a missing variable. -/
def raiseUndefined : Text := "expects_raise_undefined".toList

/-- The function that reports a variable of another kind. -/
def raiseWrongType : Text := "expects_raise_wrong_type".toList

/-- The function that reports a variable of another class. -/
def raiseWrongClass : Text := "expects_raise_wrong_class".toList

/-- The test for a kind. -/
def kindTest : Text := "expects_kind".toList

/-- The test for a class. -/
def classTest : Text := "expects_instance".toList

/-- A block tag; with `trim` it takes away the blanks before it. -/
def Delimiters.tag (δ : Delimiters) (trim : Bool) (content : Text) : Text :=
  δ.blockStart ++ (if trim then ['-'] else []) ++ ' ' :: content ++ ' ' :: δ.blockEnd

/-- An output tag. -/
def Delimiters.output (δ : Delimiters) (content : Text) : Text :=
  δ.variableStart ++ ' ' :: content ++ ' ' :: δ.variableEnd

/-- A call with arguments. -/
def callText (function : Text) (arguments : List Text) : Text :=
  function ++ '(' :: ", ".toList.intercalate arguments ++ [')']

/-- The condition that a variable is missing or null. -/
def absentText (name : Text) : Text :=
  name ++ " is not defined or ".toList ++ name ++ " is none".toList

/-- The condition that a variable is not null and fails a test. -/
def failsText (name test argument : Text) : Text :=
  name ++ " is not none and ".toList ++ name ++ " is not ".toList ++ callText test [argument]

/-- The condition under which a guard acts. -/
def Guard.condition : Guard → Text
  | .present name | .fallback name _ => absentText name
  | .ofKind name kind => failsText name kindTest (quoted kind.name.toList)
  | .ofClass name path => failsText name classTest (quoted path)

/-- What a guard does when its condition holds. -/
def Guard.action (δ : Delimiters) : Guard → Except RangeFault Text
  | .present name => .ok (δ.output (callText raiseUndefined [quoted name]))
  | .fallback name default => do
    let value ← default.source
    pure (δ.tag false ("set ".toList ++ name ++ " = ".toList ++ value))
  | .ofKind name kind =>
    .ok (δ.output (callText raiseWrongType [quoted name, quoted kind.name.toList, name]))
  | .ofClass name path => .ok (δ.output (callText raiseWrongClass [quoted name, quoted path]))

/-- A guard as a statement; with `trim` it takes away the blanks before it. -/
def Guard.statement (δ : Delimiters) (trim : Bool) (g : Guard) : Except RangeFault Text := do
  let action ← g.action δ
  pure (δ.tag trim ("if ".toList ++ g.condition) ++ action ++ δ.tag false "endif".toList)

/-- Guards after `count` others: each but the very first stands on a line of its own
and takes away the line feed before it. -/
def Guard.statementsAfter (δ : Delimiters) : Nat → List Guard → Except RangeFault Text
  | _, [] => .ok []
  | count, g :: rest => do
    let statement ← g.statement δ (0 < count)
    let others ← statementsAfter δ (count + 1) rest
    pure ((if 0 < count then ['\n'] else []) ++ statement ++ others)

/-- The guards of declarations as template text; nothing for none. -/
def guardText (δ : Delimiters) (ds : List Declaration) : Except RangeFault Text :=
  Guard.statementsAfter δ 0 (ds.flatMap Declaration.guards)

end ViewContract
