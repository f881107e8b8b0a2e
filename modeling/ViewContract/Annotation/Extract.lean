/-
ViewContract.Annotation.Extract — the annotations of a template.

The word `@expects` opens an annotation unless a word character or another at
sign stands before it. With a parenthesis after it, the annotation ends at the
parenthesis that balances it on the same line; quoted text in between does not
count. Otherwise it ends at the next `@endexpects`.

The two forms are found by two scans. Each is a recursion over the template
that carries the character before, the offset, and how many characters the
last occurrence still covers. A parameter list that overlaps a block belongs
to the block and is only noted.
-/
import ViewContract.Annotation.Basic
import ViewContract.Event
import ViewContract.Ordering
import ViewContract.Text.Word

namespace ViewContract.Annotation

open ViewContract.Text

/-! ## 1. Openings -/

/-- The word that opens an annotation. -/
def opener : Text := "@expects".toList

/-- The word that closes a block. -/
def blockCloser : Text := "@endexpects".toList

/-- Whether an annotation may begin after a character. -/
def mayFollow : Option Char → Bool
  | none => true
  | some c => !isWord c && c ≠ '@'

/-- A text without the spaces and tabs at its start. -/
def dropSpaces (t : Text) : Text :=
  t.dropWhile fun c => c = ' ' || c = '\t'

/-! ## 2. Parameter lists -/

/-- How many characters there are up to and with the parenthesis that closes the
`depth` open ones; `quote` is the quote inside which the text begins. The
search stops at the end of the line. -/
def closingLength? (depth : Nat) (quote : Option Char) : Text → Option Nat
  | [] => none
  | c :: rest =>
    if c = '\n' then none
    else match quote with
      | some q =>
        if c = '\\' then
          match rest with
          | [] => none
          | _ :: rest => (closingLength? depth quote rest).map (· + 2)
        else (closingLength? depth (if c = q then none else quote) rest).map (· + 1)
      | none =>
        if c = '\'' || c = '"' then (closingLength? depth (some c) rest).map (· + 1)
        else if c = '(' then (closingLength? (depth + 1) none rest).map (· + 1)
        else if c = ')' then
          if depth ≤ 1 then some 1 else (closingLength? (depth - 1) none rest).map (· + 1)
        else (closingLength? depth none rest).map (· + 1)

/-- The parameter list that a text at an offset begins with. -/
def expressionHere? (start : Nat) (t : Text) : Option Annotation := do
  let afterWord ← opener.isPrefixOf? t
  match dropSpaces afterWord with
  | '(' :: inner =>
    let length ← closingLength? 1 none inner
    let stop := start + (t.length - inner.length) + length
    some { form := .expression, body := inner.take (length - 1), start, stop,
           text := t.take (stop - start) }
  | _ => none

/-! ## 3. Blocks -/

/-- The text up to the first closing word that no word character follows. -/
def blockBody? : Text → Option Text
  | [] => none
  | c :: rest =>
    match blockCloser.isPrefixOf? (c :: rest) with
    | some after =>
      if after.head?.any isWord then (blockBody? rest).map (c :: ·) else some []
    | none => (blockBody? rest).map (c :: ·)

/-- The block that a text at an offset begins with. -/
def blockHere? (start : Nat) (t : Text) : Option Annotation := do
  let afterWord ← opener.isPrefixOf? t
  if afterWord.head?.any isWord || (dropSpaces afterWord).head? = some '(' then none
  else
    let body ← blockBody? afterWord
    let stop := start + opener.length + body.length + blockCloser.length
    some { form := .block, body, start, stop, text := t.take (stop - start) }

/-! ## 4. The scans -/

/-- The occurrences that `here?` finds in the rest of a template, from left to right
and without overlap. -/
def scanFrom (here? : Nat → Text → Option Annotation) (before : Option Char) (offset : Nat)
    (covered : Nat) : Text → List Annotation
  | [] => []
  | c :: rest =>
    match covered with
    | covered + 1 => scanFrom here? (some c) (offset + 1) covered rest
    | 0 =>
      let found := if mayFollow before then here? offset (c :: rest) else none
      match found with
      | some a => a :: scanFrom here? (some c) (offset + 1) (a.stop - a.start - 1) rest
      | none => scanFrom here? (some c) (offset + 1) 0 rest

/-- The parameter lists of a template, also those inside blocks. -/
def expressions (source : Text) : List Annotation :=
  scanFrom expressionHere? none 0 0 source

/-- The blocks of a template. -/
def blocks (source : Text) : List Annotation :=
  scanFrom blockHere? none 0 0 source

/-- The annotations of a template in order; parameter lists that overlap a block
are left out and noted. -/
def extract (source : Text) : Logged (List Annotation) :=
  let blocks := blocks source
  let (nested, free) := (expressions source).partition fun a => blocks.any a.overlaps
  { log := nested.map fun a => .skippedNested a.start
    value := sortOn (fun a => (a.start : Int)) (blocks ++ free) }

end ViewContract.Annotation
