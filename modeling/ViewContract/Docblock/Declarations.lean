/-
ViewContract.Docblock.Declarations — declarations of a doc comment.

A `param` or `var` tag declares one variable: an optional type, the variable,
and a description that may give a default in parentheses. Other tags declare
nothing and are noted. A variable is required if it has no default marker and
its type does not admit null.
-/
import ViewContract.Docblock.Tag
import ViewContract.Docblock.TypeExpr
import ViewContract.Event

namespace ViewContract.Docblock

open ViewContract.Text

/-! ## 1. The parts of a declaring tag -/

/-- The variable that a text begins with and what follows it: a dollar sign, an
identifier, and then a blank or the end. -/
def leadingVariable? : Text → Option (Text × Text)
  | '$' :: rest =>
    match leadingIdentifier? rest with
    | none => none
    | some name =>
      let after := rest.drop name.length
      if after.head?.all isBlank then some (name, after) else none
  | _ => none

/-- The text of a default marker at the start: `(default:`, in any case of letters,
and all up to the next closing parenthesis. -/
def markerHere? (t : Text) : Option Text :=
  let lead := "(default:".toList
  if (t.take lead.length).map Char.toLower = lead then
    let body := t.drop lead.length
    let value := body.takeWhile (· ≠ ')')
    if value.length < body.length then some value else none
  else none

/-- The text of the first default marker in a description. -/
def marker? : Text → Option Text
  | [] => none
  | c :: rest => markerHere? (c :: rest) <|> marker? rest

/-! ## 2. Declarations -/

/-- Whether a tag declares a variable. -/
def Tag.declares (tag : Tag) : Bool :=
  tag.name = "param".toList || tag.name = "var".toList

/-- The type of a tag and what follows it; a tag that begins with a variable has no
type. -/
def Tag.typeMembers (tag : Tag) (rest : Text) : Except GrammarFault (List Member × Text) :=
  if rest.head? = some '$' then .ok ([], rest)
  else do
    let (expr, after) ← scanType tag.line rest
    let ms ← members tag.line expr
    pure (ms, trim after)

/-- The default that a marker gives. -/
def defaultOfMarker (marker : Option Text) (type : Option TypeRef) :
    Except BodyError (Option Literal) :=
  match marker with
  | none => .ok none
  | some value => (Literal.ofText (trim value) type).mapError DefaultError.inBody

/-- The declaration of a tag. -/
def Tag.declaration (tag : Tag) : Except BodyError Declaration := do
  let rest := trim tag.rest
  if rest.isEmpty then failGrammar (.emptyTag tag.name tag.line)
  else
    let (ms, rest) ← (tag.typeMembers rest).mapError .grammar
    match leadingVariable? rest with
    | none => failGrammar (.tagWithoutVariable tag.name tag.line)
    | some (name, description) =>
      let typing := Typing.ofMembers ms
      let marker := marker? description
      let default ← defaultOfMarker marker typing.type
      Declaration.inBody
        { name, required := marker.isNone && !typing.nullable, type := typing.type, default,
          nullable := typing.nullable }

/-- The declarations of the declaring tags, in order. -/
def declarationsOf : List Tag → Except BodyError (List Declaration)
  | [] => .ok []
  | tag :: tags =>
    if tag.declares then do
      let d ← tag.declaration
      let ds ← declarationsOf tags
      pure (d :: ds)
    else declarationsOf tags

/-- The tags that declare nothing, up to the first declaring tag that fails. -/
def ignoredOf : List Tag → List Event
  | [] => []
  | tag :: tags =>
    if tag.declares then
      match tag.declaration with
      | .ok _ => ignoredOf tags
      | .error _ => []
    else .ignoredTag tag.name tag.line :: ignoredOf tags

/-- The declarations of a doc comment, in order and with distinct names, and the
tags that were ignored on the way. -/
def declarations (body : Text) : Logged (Except BodyError (List Declaration)) :=
  { log := ignoredOf (tags body)
    value := do
      let ds ← declarationsOf (tags body)
      distinct ds }

end ViewContract.Docblock
