/-
ViewContract.Signature.Parameter — declarations of a parameter list.

A parameter is an optional type name, a variable and an optional default; the
parameters are separated by commas, and a comma may follow the last. Arrays,
constants and constructions are read as defaults too, so that they are refused
as defaults and not as errors of the grammar.

Every reading function returns what it read and the tokens that are left;
`stop` is the length of the body, where an error at its end is placed. `fuel`
bounds the steps of a reading and is never less than what its tokens need.
`room` is what the stack has left for readers that call each other: arrays that
are nested deeper are not read, and the error is none of the grammar.
-/
import ViewContract.Signature.Token
import ViewContract.Signature.Quoted

namespace ViewContract.Signature

open ViewContract.Text

/-! ## 1. Single tokens -/

/-- Whether the first token is a certain punctuation character. -/
def startsWith (c : Char) : List Token → Bool
  | token :: _ => token.kind = .punctuation && token.text = [c]
  | [] => false

/-- The fault that something else is expected before the first token. -/
def unexpected {α : Type} (stop : Nat) (what : Expected) : List Token → Except BodyError α
  | token :: _ => failGrammar (.expected what (some token.text) token.position)
  | [] => failGrammar (.expected what none stop)

/-- The first token, which must be of a certain kind, and the tokens after it. -/
def expectKind (stop : Nat) (kind : TokenKind) (what : Expected) (tokens : List Token) :
    Except BodyError (Token × List Token) :=
  match tokens with
  | token :: rest => if token.kind = kind then .ok (token, rest) else unexpected stop what tokens
  | [] => unexpected stop what []

/-! ## 2. Defaults -/

/-- The number of a token. -/
def readNumber (token : Token) : Except BodyError Number.Literal :=
  (Number.Literal.read token.text).mapError fun _ =>
    .grammar (.invalidNumber token.text token.position)

/-- A number as a value. -/
def valueOfNumber : Number.Literal → Value
  | .int n => .int n
  | .float x => .float x

/-- The readers that the stack has room for, where an application does not say otherwise: it holds
a thousand calls, of which those that lead to the first default, and those that a reader makes for
its tokens, are taken off. How many these are depends on who calls. -/
def stackRoom : Nat := 980

/-- A call of a reader from another one, if the stack has room for it. -/
def deeper {α : Type} (room : Nat) (read : Nat → Except BodyError α) : Except BodyError α :=
  match room with
  | 0 => .error (.range .depth)
  | room + 1 => read room

mutual

/-- A default. -/
def readDefault (stop room : Nat) : Nat → List Token → Except BodyError (Value × List Token)
  | 0, tokens => unexpected stop .value tokens
  | _, [] => unexpected stop .value []
  | fuel + 1, token :: rest =>
    match token.kind with
    | .punctuation =>
      if token.text = ['+'] || token.text = ['-'] then do
        let (digits, rest) ← expectKind stop .number .number rest
        let number ← readNumber digits
        pure (valueOfNumber (if token.text = ['-'] then number.neg else number), rest)
      else if token.text = ['['] then
        deeper room fun room => readItems stop room ']' fuel [] rest
      else unexpected stop .value (token :: rest)
    | .number => do
      let number ← readNumber token
      pure (valueOfNumber number, rest)
    | .string => do
      let text ← (unquote (some token.position) token.text).mapError .grammar
      pure (.string text, rest)
    | .name => deeper room fun room => readNamed stop room fuel token.text rest
    | _ => unexpected stop .value (token :: rest)

/-- A default that begins with a name. -/
def readNamed (stop room : Nat) :
    Nat → Text → List Token → Except BodyError (Value × List Token)
  | 0, _, tokens => unexpected stop .value tokens
  | fuel + 1, name, tokens =>
    let word := lower name
    if word = "null".toList then .ok (.null, tokens)
    else if word = "true".toList then .ok (.bool true, tokens)
    else if word = "false".toList then .ok (.bool false, tokens)
    else if word = "array".toList && startsWith '(' tokens then
      deeper room fun room => readItems stop room ')' fuel [] (tokens.drop 1)
    else if word = "new".toList then do
      let (ofClass, rest) ← expectKind stop .name .className tokens
      let value := Value.expression ("new ".toList ++ ofClass.text)
      if startsWith '(' rest then do
        let (_, rest) ← deeper room fun room => readItems stop room ')' fuel [] (rest.drop 1)
        pure (value, rest)
      else pure (value, rest)
    else match tokens with
      | ⟨.doubleColon, _, _⟩ :: rest => do
        let (member, rest) ← expectKind stop .name .constantName rest
        pure (.expression ("constant ".toList ++ name ++ "::".toList ++ member.text), rest)
      | _ => .ok (.expression ("constant ".toList ++ name), tokens)

/-- The items of an array up to its closing bracket, after those already read,
last item first. The next item is read in the same call. -/
def readItems (stop room : Nat) (closer : Char) :
    Nat → List Value → List Token → Except BodyError (Value × List Token)
  | 0, _, tokens => unexpected stop .value tokens
  | fuel + 1, items, tokens =>
    if startsWith closer tokens then .ok (.list items.reverse, tokens.drop 1)
    else do
      let (item, rest) ← deeper room fun room => readDefault stop room fuel tokens
      let (item, rest) ← match rest with
        | ⟨.arrow, _, _⟩ :: rest => do
          let (value, rest) ← deeper room fun room => readDefault stop room fuel rest
          pure (Value.tuple [item, value], rest)
        | _ => pure (item, rest)
      if startsWith closer rest then .ok (.list (item :: items).reverse, rest.drop 1)
      else if startsWith ',' rest then
        readItems stop room closer fuel (item :: items) (rest.drop 1)
      else unexpected stop (.commaOr closer) rest

end

/-! ## 3. Parameters -/

/-- The type name at the start, if there is one, with its question mark. -/
def readTypeName (stop : Nat) (tokens : List Token) : Except BodyError (Text × List Token) :=
  if startsWith '?' tokens then do
    let (name, rest) ← expectKind stop .name .typeName (tokens.drop 1)
    pure ('?' :: name.text, rest)
  else match tokens with
    | ⟨.name, text, _⟩ :: rest => .ok (text, rest)
    | _ => .ok ([], tokens)

/-- What a type name means: a leading question mark admits null, the exact names
of the kinds are kinds, and all else is a class. -/
def typingOfName (raw : Text) : Except GrammarFault Typing :=
  let (nullable, name) := match raw with
    | '?' :: rest => (true, rest)
    | _ => (false, raw)
  if name.isEmpty then .ok { nullable }
  else match Kind.ofName? name with
    | some kind => .ok { type := some (.primitive kind), nullable }
    | none =>
      match TypeRef.ofPath (normalizePath name) with
      | .ok type => .ok { type := some type, nullable }
      | .error _ => .error (.invalidTypeName name)

/-- The variable at the start, without its dollar sign. -/
def readVariable (stop : Nat) (tokens : List Token) : Except BodyError (Text × List Token) :=
  match tokens with
  | ⟨.dollar, _, position⟩ :: _ => failGrammar (.namelessVariable position)
  | _ => do
    let (token, rest) ← expectKind stop .variableName .variableName tokens
    pure (token.text.drop 1, rest)

/-- One parameter. -/
def readParameter (stop room fuel : Nat) (tokens : List Token) :
    Except BodyError (Declaration × List Token) := do
  let (typeName, rest) ← readTypeName stop tokens
  let (name, rest) ← readVariable stop rest
  let typing ← (typingOfName typeName).mapError .grammar
  if startsWith '=' rest then
    let (value, rest) ← readDefault stop room fuel (rest.drop 1)
    let default ← (Literal.ofValue value).mapError DefaultError.inBody
    let d ← Declaration.inBody
      { name, required := false, type := typing.type, default := some default,
        nullable := typing.nullable }
    pure (d, rest)
  else
    let d ← Declaration.inBody
      { name, required := true, type := typing.type, nullable := typing.nullable }
    pure (d, rest)

/-- The parameters up to the end of the body. -/
def readParameters (stop room : Nat) : Nat → List Token → Except BodyError (List Declaration)
  | _, [] => .ok []
  | 0, tokens => unexpected stop .comma tokens
  | fuel + 1, tokens => do
    let (d, rest) ← readParameter stop room (2 * tokens.length + 1) tokens
    match rest with
    | [] => pure [d]
    | _ =>
      if startsWith ',' rest then
        let ds ← readParameters stop room fuel (rest.drop 1)
        pure (d :: ds)
      else unexpected stop .comma rest

/-- The declarations of a parameter list, in order and with distinct names. -/
def declarations (body : Text) (room : Nat := stackRoom) : Except BodyError (List Declaration) := do
  let tokens ← (tokenize body).mapError .grammar
  let ds ← readParameters body.length room tokens.length tokens
  distinct ds

end ViewContract.Signature
