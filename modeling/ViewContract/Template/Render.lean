/-
ViewContract.Template.Render — rendering with checks.

Nodes are run in order against a context. A check that fails ends the
rendering, so the first failing guard gives the answer; an assignment holds for
all that follows. Class checks may note that a path names no class.

These are the rules of Jinja2 that are used. A name stands for what the context binds it to: the
values of the rendering come before the names of the environment, so that they may bind the names
of the functions that report to something else, and a template that reads `self` finds itself
there. An output writes the text of a value as it is, and nothing for an undefined value unless
that is an error. An assignment in a conditional part holds behind it. A call may be that of any
value: of a function that reports, which ends the rendering, of what the application brings, or of
something that cannot be called. Escaping of outputs (`autoescape`), attributes, filters, further
statements and other tests are left out.
-/
import ViewContract.Template.Node
import ViewContract.Template.Preprocess
import ViewContract.Value.Check
import ViewContract.Value.Kind
import ViewContract.Value.Shown

namespace ViewContract.Template

open ViewContract.Text

/-! ## 1. Contexts -/

/-- The values of the variables, the latest binding first. -/
abbrev Context := List (Text × Value)

/-- The names that every template knows: classes and functions. -/
def globals : Context :=
  ["range", "dict", "cycler", "joiner", "namespace"].map
    (fun name => (name.toList, .type (.builtin name))) ++
  (["lipsum".toList, raiseUndefined, raiseWrongType, raiseWrongClass].map
    fun name => (name, .function name))

/-- The value of a variable. -/
def Context.value? (context : Context) (name : Text) : Option Value :=
  (context.find? (·.1 = name)).map (·.2)

/-- The context of a template that is rendered with some values: they go before the
names that every template knows, and the template's own name before all. -/
def Context.ofValues (values : Context) : Context :=
  ("self".toList, .template) :: values ++ globals

/-! ## 2. Running -/

/-- Why a rendering fails. -/
inductive RenderError where
  | template (e : TemplateError)
  | check (fault : CheckFault)
  /-- An undefined variable is called, or is written out where that is an error. -/
  | undefined (name : Text)
  | call (fault : CallFault)
  | range (fault : RangeFault)
  | unknownKind (fault : UnknownKind)
  /-- The template uses more of the language than nodes cover, or calls a function that reports in
  another way than guards do. -/
  | unsupported
  deriving DecidableEq, Repr

/-- The wording of an undefined variable that is called or written out. -/
def undefinedMessage (name : Text) : String :=
  s!"{shownString name} is undefined"

/-- A run that may fail and may note events. -/
abbrev Run (α : Type) := ExceptT RenderError Logged α

/-- A run without events. -/
def Run.ofExcept {α : Type} (result : Except RenderError α) : Run α :=
  ExceptT.mk { value := result }

/-- A run that never fails. -/
def Run.ofLogged {α : Type} (result : Logged α) : Run α :=
  ExceptT.mk { log := result.log, value := .ok result.value }

/-- The names of the functions that report a failed check. -/
def reporters : List Text :=
  [raiseUndefined, raiseWrongType, raiseWrongClass]

/-- What a function that reports says of some arguments, if it is called as guards call it. -/
def reported? (function : Text) (arguments : List (Option Value)) : Option CheckFault :=
  match arguments with
  | [some (.string name)] => if function = raiseUndefined then some (.missing name) else none
  | [some (.string name), some (.string path)] =>
    if function = raiseWrongClass then some (.wrongClass name path) else none
  | [some (.string name), some (.string expected), some v] =>
    if function = raiseWrongType then some (.wrongKind name expected v.kindName) else none
  | _ => none

/-- What a call of a value comes to; `none` is an undefined value. A function that reports a
failed check fails with the report. Other functions, classes and objects give what the registry
says, and data cannot be called. -/
def callFunction (registry : Registry) (function : Value) (arguments : List (Option Value)) :
    Except RenderError (Option Value) :=
  match function with
  | .function name =>
    if reporters.contains name then .error ((reported? name arguments).elim .unsupported .check)
    else (registry.call function arguments).mapError .call
  | .type _ | .object _ => (registry.call function arguments).mapError .call
  | _ => .error (.call (.notCallable function.ofClass.name))

/-- Whether a value passes a test; `none` is the value of an undefined variable. -/
def runTest (registry : Registry) (test : Text) (arguments : List (Option Value))
    (v : Option Value) : Run Bool :=
  if test = "defined".toList then pure v.isSome
  else if test = "none".toList then
    pure (match v with | some .null => true | _ => false)
  else match arguments, v with
    | [some (.string argument)], some v =>
      if test = kindTest then
        Run.ofExcept (((Kind.ofName argument).map v.isOfKind).mapError .unknownKind)
      else if test = classTest then Run.ofLogged (v.isInstance registry argument)
      else Run.ofExcept (.error .unsupported)
    | _, _ => Run.ofExcept (.error .unsupported)

/-- Whether a value counts as true; an undefined one does not. -/
def isTrue (v : Option Value) : Bool :=
  v.any Value.isTrue

mutual

/-- The value of an expression; `none` for an undefined variable. -/
def eval (registry : Registry) (context : Context) : Expr → Run (Option Value)
  | .const v => pure (some v)
  | .name name => pure (context.value? name)
  | .neg e => do
    match ← eval registry context e with
    | some (.int n) => pure (some (.int (-n)))
    | some (.float x) => pure (some (.float x.neg))
    | _ => Run.ofExcept (.error .unsupported)
  | .not e => do
    let v ← eval registry context e
    pure (some (.bool (!isTrue v)))
  | .and left right => do
    let v ← eval registry context left
    if isTrue v then eval registry context right else pure v
  | .or left right => do
    let v ← eval registry context left
    if isTrue v then pure v else eval registry context right
  | .call function arguments => do
    let values ← evalAll registry context arguments
    match context.value? function with
    | some f => Run.ofExcept (callFunction registry f values)
    | none => Run.ofExcept (.error (.undefined function))
  | .test e test arguments => do
    let v ← eval registry context e
    let values ← evalAll registry context arguments
    let passed ← runTest registry test values v
    pure (some (.bool passed))

/-- The values of expressions, in order. -/
def evalAll (registry : Registry) (context : Context) : List Expr → Run (List (Option Value))
  | [] => pure []
  | e :: rest => do
    let v ← eval registry context e
    let values ← evalAll registry context rest
    pure (v :: values)

end

/-- What an output writes. -/
def outputText (env : Environment) (e : Expr) (v : Option Value) : Except RenderError Text :=
  match v with
  | some v => v.display.mapError fun _ => .range .digits
  | none =>
    if env.strict then
      .error (match e with | .name name => .undefined name | _ => .unsupported)
    else .ok []

mutual

/-- Run a node: the text it writes, and the context for what follows. -/
def runNode (env : Environment) (registry : Registry) (context : Context) :
    Node → Run (Text × Context)
  | .text t => pure (t, context)
  | .output e => do
    let v ← eval registry context e
    let text ← Run.ofExcept (outputText env e v)
    pure (text, context)
  | .assign name e => do
    match ← eval registry context e with
    | some v => pure ([], (name, v) :: context)
    | none => Run.ofExcept (.error .unsupported)
  | .branch condition body => do
    let v ← eval registry context condition
    if isTrue v then runNodes env registry context body else pure ([], context)

/-- Run nodes in order. -/
def runNodes (env : Environment) (registry : Registry) (context : Context) :
    List Node → Run (Text × Context)
  | [] => pure ([], context)
  | node :: rest => do
    let (text, context) ← runNode env registry context node
    let (others, context) ← runNodes env registry context rest
    pure (text ++ others, context)

end

/-! ## 3. Rendering -/

/-- The nodes of a compiled template. -/
def nodesOf (env : Environment) (source : Text) : Except RenderError (List Node) :=
  let s := scan env source
  match s.fault, Node.ofTokens? s.tokens with
  | some fault, _ => .error (.template (.refused (fault.refusal {})))
  | none, some nodes => .ok nodes
  | none, none => .error .unsupported

/-- A template rendered with some values. -/
def render (env : Environment) (settings : Settings) (registry : Registry) (values : Context)
    (source : Text) : Run Text := do
  let compiled : Logged (Except TemplateError Text) := preprocess env settings {} source
  let text ← ExceptT.mk { compiled with value := compiled.value.mapError RenderError.template }
  let nodes ← Run.ofExcept (nodesOf env text)
  let (rendered, _) ← runNodes env registry (Context.ofValues values) nodes
  pure rendered

end ViewContract.Template
