/-
ViewContract.Template.Preprocess — a template before it is rendered.

If raw code is not allowed, the template as it was written is searched for it,
whether or not checks are enabled. Then the annotations are compiled in the
delimiters of the environment. A refused template is reported with the line
that is to blame.
-/
import ViewContract.Compile
import ViewContract.Template.RawCode

namespace ViewContract.Template

open ViewContract.Text

/-- Why a template is refused. -/
inductive RefusalCause where
  | rawCode
  | usage (fault : UsageFault)
  | token (cause : TokenCause)
  deriving DecidableEq, Repr

/-- The wording of a refusal. -/
def RefusalCause.message : RefusalCause → String
  | .rawCode => "Raw code (\x7b% do %\x7d statements) is not allowed in templates"
  | .usage fault => fault.message
  | .token cause => cause.message

/-- Where a template comes from, as far as that is known. -/
structure Origin where
  name : Option Text := none
  file : Option Text := none
  deriving DecidableEq, Repr

/-- A refused template: why, on which line, and from where. -/
structure Refusal where
  cause : RefusalCause
  line : Nat
  origin : Origin
  deriving DecidableEq, Repr

/-- Why a template has no compiled text. -/
inductive TemplateError where
  | refused (refusal : Refusal)
  | range (fault : RangeFault)
  | overlap (fault : Overlap)
  deriving DecidableEq, Repr

/-- A fault of the tokens as a refusal. A part that is not closed is reported under
the file, not the name. -/
def TokenFault.refusal (origin : Origin) (fault : TokenFault) : Refusal :=
  let origin := match fault.cause with
    | .unclosedComment | .unclosedRaw => { name := origin.file }
    | _ => origin
  { cause := .token fault.cause, line := fault.line, origin }

/-- The line of an offset: one more than the line feeds before it. -/
def lineOfOffset (source : Text) (offset : Nat) : Nat :=
  lineFeeds (source.take offset) + 1

/-- A compile error of a template. -/
def compileRefusal (origin : Origin) (source : Text) : CompileError → TemplateError
  | .usage fault =>
    .refused { cause := .usage fault, line := lineOfOffset source fault.offset, origin }
  | .range fault => .range fault
  | .overlap fault => .overlap fault

/-- The refusal of a template with raw code, where that is not allowed. -/
def checkRawCode (env : Environment) (settings : Settings) (origin : Origin) (source : Text) :
    Except TemplateError Unit :=
  if settings.allowRawCode then .ok ()
  else match findRawCode env source with
    | .ok none => .ok ()
    | .ok (some line) => .error (.refused { cause := .rawCode, line, origin })
    | .error fault => .error (.refused (fault.refusal origin))

/-- A template with its annotations compiled. -/
def preprocess (env : Environment) (settings : Settings) (origin : Origin) (source : Text) :
    Logged (Except TemplateError Text) :=
  match checkRawCode env settings origin source with
  | .error e => { value := .error e }
  | .ok () =>
    let compiled := compile settings env.delimiters source
    { log := compiled.log, value := compiled.value.mapError (compileRefusal origin source) }

end ViewContract.Template
