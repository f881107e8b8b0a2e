/-
ViewContract.Proofs.Guard.Run — what expressions and nodes come to.

A run may fail, and notes events besides. What it comes to is said without the events, for each
kind of expression and of node by what its parts come to, and then for the conditions and the
actions of guards. Guards report by calling a function by its name. A context may bind the name to
something else, whose call may go on; where it does not (`Context.Reports`) the call fails with the
report. An output leaves the context in any case.

  §1 runs without their events.
  §2 contexts: what a variable is bound to, and whether guards can report.
  §3 expressions.
  §4 nodes, and those of guards among them.
-/
import ViewContract.Proofs.Guard.Nodes
import ViewContract.Proofs.Signature.Reading
import ViewContract.Proofs.Value.Kind

namespace ViewContract.Template

open ViewContract.Text

/-! ## 1. Runs without events -/

/-- What a run comes to, without its events. -/
def resultOf {α : Type} (run : Run α) : Except RenderError α :=
  (ExceptT.run run).value

section results

variable {α β : Type}

theorem exists_of_map_eq_ok {ε : Type} {x : Except ε α} {f : α → β} {b : β}
    (h : x.map f = .ok b) : ∃ a, x = .ok a ∧ f a = b := by
  cases x with
  | error e => exact nomatch h
  | ok a => exact ⟨a, rfl, Except.ok.inj h⟩

@[simp] theorem resultOf_pure (a : α) : resultOf (pure a : Run α) = .ok a :=
  rfl

@[simp] theorem resultOf_ofExcept (r : Except RenderError α) : resultOf (Run.ofExcept r) = r :=
  rfl

@[simp] theorem resultOf_ofLogged (r : Logged α) : resultOf (Run.ofLogged r) = .ok r.value :=
  rfl

@[simp] theorem resultOf_bind (x : Run α) (f : α → Run β) :
    resultOf (x >>= f) = (resultOf x).bind fun a => resultOf (f a) := by
  change (ExceptT.bindCont f (ExceptT.run x).value).value = _
  cases h : (ExceptT.run x).value <;> simp [resultOf, h] <;> rfl

end results

/-! ## 2. Contexts -/

section contexts

variable {context : Context} {name : Text}

theorem value?_cons_self (name : Text) (v : Value) :
    Context.value? ((name, v) :: context) name = some v := by
  simp [Context.value?]

theorem value?_cons_of_ne {name other : Text} (h : other ≠ name) (v : Value) :
    Context.value? ((name, v) :: context) other = context.value? other := by
  simp [Context.value?, h.symm]

theorem value?_append (context context' : Context) (name : Text) :
    Context.value? (context ++ context') name
      = (context.value? name).or (Context.value? context' name) := by
  rw [Context.value?, List.find?_append, Option.map_or]
  rfl

/-- The value of a variable, if it is bound to one that is not null. -/
def Context.given? (context : Context) (name : Text) : Option Value :=
  match context.value? name with
  | some .null => none
  | v => v

theorem given?_eq_some {v : Value} :
    context.given? name = some v ↔ context.value? name = some v ∧ v ≠ .null := by
  rw [Context.given?]
  split
  · rename_i h
    simp only [h, reduceCtorEq, Option.some.injEq, false_iff, not_and, not_not]
    exact fun h => h.symm
  · rename_i hnot
    constructor
    · rintro h
      refine ⟨h, ?_⟩
      rintro rfl
      exact hnot h
    · exact And.left

theorem given?_congr {context context' : Context} {name : Text}
    (h : context.value? name = context'.value? name) :
    context.given? name = context'.given? name := by
  rw [Context.given?, Context.given?, h]

/-- The names of the functions that report stand for these functions. -/
def Context.Reports (context : Context) : Prop :=
  ∀ function ∈ reporters, context.value? function = some (.function function)

theorem reports_cons (hgiven : context.given? name = none) (v : Value) (h : context.Reports) :
    Context.Reports ((name, v) :: context) := by
  intro function hfunction
  have hbound := h function hfunction
  have hne : function ≠ name := by
    rintro rfl
    rw [Context.given?, hbound] at hgiven
    exact nomatch hgiven
  rw [value?_cons_of_ne hne, hbound]

/-- Values that leave the names of the functions that report alone do so in a rendering. -/
theorem reports_ofValues {values : Context}
    (h : ∀ function ∈ reporters, values.value? function = none) :
    (Context.ofValues values).Reports := by
  intro function hfunction
  have hself : function ≠ "self".toList := by
    rintro rfl
    exact absurd hfunction (by decide)
  have hglobals : Context.value? globals function = some (.function function) := by
    simp only [reporters, List.mem_cons, List.not_mem_nil, or_false] at hfunction
    rcases hfunction with rfl | rfl | rfl <;> rfl
  rw [Context.ofValues, List.cons_append, value?_cons_of_ne hself, value?_append,
    h function hfunction]
  exact hglobals

end contexts

/-- A run that fails with a report, where the context lets guards report. -/
def Fails {α : Type} (context : Context) (run : Run α) (fault : CheckFault) : Prop :=
  context.Reports → resultOf run = .error (.check fault)

end ViewContract.Template

namespace ViewContract

/-- The value of a literal. -/
def Literal.value : Literal → Value
  | .null => .null
  | .int n => .int n
  | .float x => .float x
  | .string t => .string t

theorem Literal.value_eq_null {l : Literal} : l.value = .null ↔ l = .null := by
  cases l <;> simp [Literal.value]

end ViewContract

namespace ViewContract.Template

open ViewContract.Text

/-! ## 3. Expressions -/

section expressions

variable {registry : Registry} {context : Context} {name : Text}

/-! What each kind of expression comes to, from what its parts come to. -/

@[simp] theorem resultOf_const (v : Value) :
    resultOf (eval registry context (.const v)) = .ok (some v) :=
  rfl

@[simp] theorem resultOf_name (name : Text) :
    resultOf (eval registry context (.name name)) = .ok (context.value? name) :=
  rfl

theorem resultOf_neg (e : Expr) : resultOf (eval registry context (.neg e))
    = (resultOf (eval registry context e)).bind fun
      | some (.int n) => .ok (some (.int (-n)))
      | some (.float x) => .ok (some (.float x.neg))
      | _ => .error .unsupported := by
  change resultOf (eval registry context e >>= _) = _
  rw [resultOf_bind]
  congr 1
  funext v
  match v with
  | none => rfl
  | some v => cases v <;> rfl

theorem resultOf_not (e : Expr) : resultOf (eval registry context (.not e))
    = (resultOf (eval registry context e)).bind fun v => .ok (some (.bool (!isTrue v))) :=
  resultOf_bind (eval registry context e) _

theorem resultOf_and (left right : Expr) : resultOf (eval registry context (.and left right))
    = (resultOf (eval registry context left)).bind fun v =>
        if isTrue v then resultOf (eval registry context right) else .ok v := by
  change resultOf (eval registry context left >>= _) = _
  rw [resultOf_bind]
  congr 1
  funext v
  split <;> rfl

theorem resultOf_or (left right : Expr) : resultOf (eval registry context (.or left right))
    = (resultOf (eval registry context left)).bind fun v =>
        if isTrue v then .ok v else resultOf (eval registry context right) := by
  change resultOf (eval registry context left >>= _) = _
  rw [resultOf_bind]
  congr 1
  funext v
  split <;> rfl

theorem resultOf_call (function : Text) (arguments : List Expr) :
    resultOf (eval registry context (.call function arguments))
      = (resultOf (evalAll registry context arguments)).bind fun values =>
          (context.value? function).elim (.error (.undefined function))
            (callFunction registry · values) := by
  change resultOf (evalAll registry context arguments >>= _) = _
  rw [resultOf_bind]
  congr 1
  funext values
  cases context.value? function <;> rfl

theorem resultOf_test (e : Expr) (test : Text) (arguments : List Expr) :
    resultOf (eval registry context (.test e test arguments))
      = (resultOf (eval registry context e)).bind fun v =>
          (resultOf (evalAll registry context arguments)).bind fun values =>
            (resultOf (runTest registry test values v)).bind fun passed =>
              .ok (some (.bool passed)) := by
  refine (resultOf_bind (eval registry context e) _).trans ?_
  congr 1
  funext v
  refine (resultOf_bind (evalAll registry context arguments) _).trans ?_
  congr 1
  funext values
  exact resultOf_bind (runTest registry test values v) _

@[simp] theorem resultOf_evalAll_nil : resultOf (evalAll registry context []) = .ok [] :=
  rfl

theorem resultOf_evalAll_cons (e : Expr) (rest : List Expr) :
    resultOf (evalAll registry context (e :: rest))
      = (resultOf (eval registry context e)).bind fun v =>
          (resultOf (evalAll registry context rest)).bind fun values => .ok (v :: values) := by
  refine (resultOf_bind (eval registry context e) _).trans ?_
  congr 1
  funext v
  exact resultOf_bind (evalAll registry context rest) _

theorem runTest_defined (arguments : List (Option Value)) (v : Option Value) :
    runTest registry "defined".toList arguments v = pure v.isSome :=
  if_pos rfl

theorem runTest_none (arguments : List (Option Value)) (v : Option Value) :
    runTest registry "none".toList arguments v
      = pure (match v with | some .null => true | _ => false) :=
  (if_neg (by decide)).trans (if_pos rfl)

theorem runTest_kind (kind : Kind) (v : Value) :
    resultOf (runTest registry kindTest [some (.string kind.name.toList)] (some v))
      = .ok (v.isOfKind kind) := by
  have hkind : Kind.ofName kind.name.toList = .ok kind := by
    rw [Kind.ofName, Kind.ofName?_name]
    rfl
  have hrun : runTest registry kindTest [some (.string kind.name.toList)] (some v)
      = Run.ofExcept (((Kind.ofName kind.name.toList).map v.isOfKind).mapError .unknownKind) :=
    (if_neg (by decide)).trans ((if_neg (by decide)).trans (if_pos rfl))
  rw [hrun, hkind]
  rfl

theorem runTest_class (path : Text) (v : Value) :
    resultOf (runTest registry classTest [some (.string path)] (some v))
      = .ok (v.isInstance registry path).value := by
  have hrun : runTest registry classTest [some (.string path)] (some v)
      = Run.ofLogged (v.isInstance registry path) :=
    (if_neg (by decide)).trans ((if_neg (by decide)).trans ((if_neg (by decide)).trans
      (if_pos rfl)))
  rw [hrun]
  rfl

/-- The condition that a variable is missing or null. -/
theorem resultOf_absent (registry : Registry) (context : Context) (name : Text) :
    resultOf (eval registry context (absentExpr name))
      = .ok (some (.bool (context.given? name).isNone)) := by
  simp only [absentExpr, resultOf_or, resultOf_not, resultOf_test, resultOf_name,
    resultOf_evalAll_nil, runTest_defined, runTest_none, resultOf_pure, Except.bind, Context.given?]
  cases context.value? name with
  | none => rfl
  | some v => cases v <;> rfl

/-- The condition that a variable is not null and fails a test, where it is bound. -/
theorem resultOf_fails {test argument : Text} {v : Value} {passed : Bool}
    (hv : context.value? name = some v)
    (htest : resultOf (runTest registry test [some (.string argument)] (some v)) = .ok passed) :
    resultOf (eval registry context (failsExpr name test argument))
      = .ok (some (.bool ((context.given? name).isSome && !passed))) := by
  simp only [failsExpr, resultOf_and, resultOf_not, resultOf_test, resultOf_name, resultOf_const,
    resultOf_evalAll_nil, resultOf_evalAll_cons, runTest_none, resultOf_pure, Except.bind,
    Context.given?, hv]
  cases v with
  | null => rfl
  | _ => simp [isTrue, Value.isTrue, htest]

theorem resultOf_literal {l : Literal} (hl : l.Writable) :
    resultOf (eval registry context l.expr) = .ok (some l.value) := by
  match l with
  | .null => rfl
  | .string t => rfl
  | .int n =>
    by_cases hn : n < 0
    · simp [Literal.expr, signedExpr, hn, resultOf_neg, Except.bind, Literal.value, abs_of_neg hn]
    · have hpos : (n.natAbs : Int) = n := by omega
      simp [Literal.expr, signedExpr, hn, Literal.value, hpos]
  | .float (.finite negative m e) =>
    cases negative with
    | false => rfl
    | true => rfl

/-- A call of a function that reports does not come to a value. -/
theorem fails_call {function : Text} {arguments : List Expr} {values : List (Option Value)}
    {fault : CheckFault} (hfunction : function ∈ reporters)
    (hvalues : resultOf (evalAll registry context arguments) = .ok values)
    (hreported : reported? function values = some fault) :
    Fails context (eval registry context (.call function arguments)) fault := by
  intro hreports
  rw [resultOf_call, hvalues]
  simp only [Except.bind, hreports function hfunction, Option.elim_some, callFunction,
    List.contains_iff_mem.mpr hfunction, if_true, hreported]

/-! The arguments of a report: texts, and the value of a variable. -/

theorem resultOf_evalAll_text (t : Text) :
    resultOf (evalAll registry context [.const (.string t)]) = .ok [some (.string t)] := by
  simp only [resultOf_evalAll_cons, resultOf_evalAll_nil, resultOf_const, Except.bind]

theorem resultOf_evalAll_texts (s t : Text) :
    resultOf (evalAll registry context [.const (.string s), .const (.string t)])
      = .ok [some (.string s), some (.string t)] := by
  simp only [resultOf_evalAll_cons, resultOf_evalAll_nil, resultOf_const, Except.bind]

theorem resultOf_evalAll_value {v : Value} (hv : context.value? name = some v) (s t : Text) :
    resultOf (evalAll registry context [.const (.string s), .const (.string t), .name name])
      = .ok [some (.string s), some (.string t), some v] := by
  simp only [resultOf_evalAll_cons, resultOf_evalAll_nil, resultOf_const, resultOf_name,
    Except.bind, hv]

theorem fails_raiseUndefined (registry : Registry) (context : Context) (name : Text) :
    Fails context (eval registry context (.call raiseUndefined [.const (.string name)]))
      (.missing name) :=
  fails_call (by decide) (resultOf_evalAll_text name) rfl

theorem fails_raiseWrongType (registry : Registry) {v : Value}
    (hv : context.value? name = some v) (expected : Text) :
    Fails context (eval registry context (.call raiseWrongType
      [.const (.string name), .const (.string expected), .name name]))
      (.wrongKind name expected v.kindName) :=
  fails_call (by decide) (resultOf_evalAll_value hv name expected) rfl

theorem fails_raiseWrongClass (registry : Registry) (context : Context) (name path : Text) :
    Fails context (eval registry context (.call raiseWrongClass
      [.const (.string name), .const (.string path)])) (.wrongClass name path) :=
  fails_call (by decide) (resultOf_evalAll_texts name path) rfl

end expressions

/-! ## 4. Nodes -/

section nodes

variable {env : Environment} {registry : Registry} {context : Context}

/-- Nodes one after another. -/
theorem resultOf_runNodes_cons (node : Node) (rest : List Node) :
    resultOf (runNodes env registry context (node :: rest))
      = (resultOf (runNode env registry context node)).bind fun (text, context') =>
          (resultOf (runNodes env registry context' rest)).map fun (others, context'') =>
            (text ++ others, context'') := by
  rw [runNodes, resultOf_bind]
  cases resultOf (runNode env registry context node) with
  | error e => rfl
  | ok done =>
    obtain ⟨text, context'⟩ := done
    simp only [Except.bind, resultOf_bind]
    cases resultOf (runNodes env registry context' rest) <;> rfl

theorem resultOf_branch {condition : Expr} {holds : Bool}
    (h : resultOf (eval registry context condition) = .ok (some (.bool holds))) (body : List Node) :
    resultOf (runNode env registry context (.branch condition body))
      = if holds then resultOf (runNodes env registry context body) else .ok ([], context) := by
  rw [runNode, resultOf_bind, h]
  cases holds <;> rfl

/-- A guard that reports ends the run if its condition holds. -/
theorem resultOf_report (env : Environment) {condition call : Expr} {holds : Bool}
    {fault : CheckFault}
    (h : resultOf (eval registry context condition) = .ok (some (.bool holds)))
    (hcall : Fails context (eval registry context call) fault) :
    if holds then
      Fails context (runNode env registry context (.branch condition [.output call])) fault
    else resultOf (runNode env registry context (.branch condition [.output call]))
      = .ok ([], context) := by
  cases holds with
  | false =>
    rw [resultOf_branch h]
    rfl
  | true =>
    intro hreports
    rw [resultOf_branch h, if_pos rfl, resultOf_runNodes_cons, runNode, resultOf_bind,
      hcall hreports]
    rfl

theorem resultOf_fallback (env : Environment) (registry : Registry) (context : Context)
    (name : Text) {default : Literal} (hdefault : default.Writable) :
    resultOf (runNode env registry context (Guard.node (.fallback name default)))
      = .ok ([], if (context.given? name).isSome then context
          else (name, default.value) :: context) := by
  have hassign : resultOf (runNode env registry context (.assign name default.expr))
      = .ok ([], (name, default.value) :: context) := by
    rw [runNode, resultOf_bind, resultOf_literal hdefault]
    rfl
  have hbody : resultOf (runNodes env registry context [.assign name default.expr])
      = .ok ([], (name, default.value) :: context) := by
    rw [resultOf_runNodes_cons, hassign]
    rfl
  have hrun : resultOf (runNode env registry context (Guard.node (.fallback name default)))
      = _ := resultOf_branch (resultOf_absent registry context name) [.assign name default.expr]
  rw [hrun, hbody]
  cases context.given? name <;> rfl

theorem resultOf_runNodes_append (xs ys : List Node) :
    resultOf (runNodes env registry context (xs ++ ys))
      = (resultOf (runNodes env registry context xs)).bind fun (text, context') =>
          (resultOf (runNodes env registry context' ys)).map fun (others, context'') =>
            (text ++ others, context'') := by
  induction xs generalizing context with
  | nil =>
    rw [List.nil_append, runNodes, resultOf_pure]
    simp only [Except.bind, List.nil_append]
    cases resultOf (runNodes env registry context ys) <;> rfl
  | cons node xs ih =>
    rw [List.cons_append, resultOf_runNodes_cons, resultOf_runNodes_cons]
    cases resultOf (runNode env registry context node) with
    | error e => rfl
    | ok done =>
      obtain ⟨text, context'⟩ := done
      simp only [Except.bind, ih]
      cases resultOf (runNodes env registry context' xs) with
      | error e => rfl
      | ok done =>
        obtain ⟨others, context''⟩ := done
        simp only [Except.map]
        cases resultOf (runNodes env registry context'' ys) with
        | error e => rfl
        | ok done => simp

/-- A node alone. -/
theorem resultOf_runNodes_singleton (node : Node) :
    resultOf (runNodes env registry context [node]) =
      resultOf (runNode env registry context node) := by
  rw [resultOf_runNodes_cons]
  cases resultOf (runNode env registry context node) with
  | error e => rfl
  | ok done =>
    obtain ⟨text, context'⟩ := done
    simp [Except.bind, runNodes, Except.map]

/-- An output leaves the context, whatever is called for it. -/
theorem resultOf_output (e : Expr) : resultOf (runNode env registry context (.output e))
    = (resultOf (eval registry context e)).bind fun v =>
        (outputText env e v).map fun text => (text, context) := by
  rw [runNode, resultOf_bind]
  congr 1
  funext v
  rw [resultOf_bind]
  cases h : outputText env e v <;> rfl

/-- What is written under a condition leaves the context. -/
theorem context_of_output {condition e : Expr} {written : Text} {context' : Context}
    (h : resultOf (runNode env registry context (.branch condition [.output e]))
      = .ok (written, context')) : context' = context := by
  rw [runNode, resultOf_bind] at h
  obtain ⟨v, _, h⟩ := exists_of_bind_eq_ok h
  split at h
  · rw [resultOf_runNodes_singleton, resultOf_output] at h
    obtain ⟨w, _, h⟩ := exists_of_bind_eq_ok h
    obtain ⟨text, _, h⟩ := exists_of_map_eq_ok h
    exact (congrArg Prod.snd h).symm
  · exact (congrArg Prod.snd (Except.ok.inj h)).symm

end nodes

end ViewContract.Template
