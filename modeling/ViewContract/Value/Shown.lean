/-
ViewContract.Value.Shown — values as text.

A value is shown in messages with its quotes and brackets, and written into
rendered text as it is: only a text differs between the two. Integers beyond
the digit limit have neither form.
-/
import ViewContract.Text.Shown
import ViewContract.Value.Basic
import ViewContract.Number.Printed

namespace ViewContract.Value

open ViewContract.Text

/-! ## 1. Bytes -/

/-- One byte of shown bytes. -/
def shownByte (quote : Char) (byte : UInt8) : Text :=
  let c := Char.ofNat byte.toNat
  if c = quote || c = '\\' then ['\\', c]
  else if c = '\n' then ['\\', 'n']
  else if c = '\r' then ['\\', 'r']
  else if c = '\t' then ['\\', 't']
  else if 0x20 ≤ byte && byte < 0x7f then [c]
  else '\\' :: 'x' :: hexDigits 2 byte.toNat

/-- Bytes between quotes, with the mark of bytes before them. -/
def shownBytes (bytes : List UInt8) : Text :=
  let quote := quoteFor (bytes.map fun byte => Char.ofNat byte.toNat)
  'b' :: quote :: bytes.flatMap (shownByte quote) ++ [quote]

/-! ## 2. Values -/

/-- Texts with commas between them. -/
def commaSeparated (texts : List Text) : Text :=
  ", ".toList.intercalate texts

mutual

/-- A value as messages show it. -/
def shown : Value → Except Number.TooManyDigits Text
  | .null => .ok "None".toList
  | .bool value => .ok (if value then "True" else "False").toList
  | .int value => Number.decimalText? value
  | .float value => .ok value.text
  | .string value => .ok (Text.shown value)
  | .list items => do
    let texts ← shownItems items
    pure ('[' :: commaSeparated texts ++ [']'])
  | .tuple items => do
    match ← shownItems items with
    | [text] => pure ('(' :: text ++ [',', ')'])
    | texts => pure ('(' :: commaSeparated texts ++ [')'])
  | .set items => do
    match ← shownItems items with
    | [] => pure "set()".toList
    | texts => pure ('\x7b' :: commaSeparated texts ++ ['\x7d'])
  | .dict entries => do
    let texts ← shownEntries entries
    pure ('\x7b' :: commaSeparated texts ++ ['\x7d'])
  | .bytes value => .ok (shownBytes value)
  | .expression description =>
    .ok ("DefaultExpression(description=".toList ++ Text.shown description ++ [')'])
  | .object c => .ok ('<' :: c.path ++ " object>".toList)
  | .type c => .ok ("<class ".toList ++ Text.shown c.path ++ ['>'])
  | .function name => .ok ("<function ".toList ++ name ++ ['>'])
  | .template => .ok "<TemplateReference None>".toList

/-- The items of a sequence, each shown. -/
def shownItems : List Value → Except Number.TooManyDigits (List Text)
  | [] => .ok []
  | item :: items => do
    let text ← shown item
    let texts ← shownItems items
    pure (text :: texts)

/-- The entries of a dictionary, each shown. -/
def shownEntries : List (Value × Value) → Except Number.TooManyDigits (List Text)
  | [] => .ok []
  | (key, item) :: entries => do
    let keyText ← shown key
    let text ← shown item
    let texts ← shownEntries entries
    pure ((keyText ++ ": ".toList ++ text) :: texts)

end

/-- A value as rendered text has it. -/
def display : Value → Except Number.TooManyDigits Text
  | .string value => .ok value
  | value => value.shown

end ViewContract.Value
