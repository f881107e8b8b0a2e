/-
ViewContract.Proofs.Guard.Mismatch — a wrong kind is reported with two kinds that differ.

A guard reports a value with the kind that is expected and the kind that the value is of. It does
so where the check of the expected kind fails, and the name of the value's kind comes from other
checks, so that the two could agree. They differ: an ordinary value bears the name of a kind only if
it is of that kind.

A guard may bind a default before the next one runs. So the invariant of a run is that variables
have the values they had before it, or defaults (`LeadsTo`), and defaults are ordinary. Nothing is
asked of the functions that report. A context may bind other values in their places, and calls of
these may go on, but what reports a wrong kind names the kind of the value it is given.

  §1 the values of variables while guards are run.
  §2 runs that report a wrong kind only of a value that is not of it: calls, branches, and nodes in
     order.
  §3 guards (`discerns_guard`).
  §4 the result (`kinds_told_apart`).
-/
import ViewContract.Proofs.Guard.Exact
import ViewContract.Proofs.Value.Kind

namespace ViewContract.Template

open ViewContract.Text

/-! ## 1. Values -/

/-- A value that a variable can have once guards have run in a context: its own, or a default. -/
def Context.Gives (context : Context) (name : Text) (v : Value) : Prop :=
  context.value? name = some v ∨ ∃ l : Literal, v = l.value

/-- Variables have the values they had in the first context, or defaults. -/
def Context.LeadsTo (context context' : Context) : Prop :=
  ∀ name v, context'.value? name = some v → context.Gives name v

variable {context₀ context : Context}

theorem Context.LeadsTo.refl (context : Context) : context.LeadsTo context :=
  fun _ _ => .inl

theorem Context.LeadsTo.cons (h : context₀.LeadsTo context) (name : Text) (l : Literal) :
    context₀.LeadsTo ((name, l.value) :: context) := by
  intro other v hv
  by_cases hother : other = name
  · rw [hother, value?_cons_self] at hv
    exact .inr ⟨l, (Option.some.inj hv).symm⟩
  · rw [value?_cons_of_ne hother] at hv
    exact h other v hv

theorem Context.Gives.ordinary {name : Text} {v : Value} (h : context.Gives name v)
    (hcontext : ∀ w, context.value? name = some w → w.Ordinary) : v.Ordinary := by
  rcases h with h | ⟨l, rfl⟩
  · exact hcontext v h
  · cases l <;> exact trivial

/-! ## 2. Runs -/

/-- What a report of a wrong kind says: a kind, and that of a value which is not of the first. -/
def Mismatch (context : Context) (name expected actual : Text) : Prop :=
  ∃ (kind : Kind) (v : Value), context.Gives name v ∧ v.isOfKind kind = false ∧
    expected = kind.name.toList ∧ actual = v.kindName

theorem Mismatch.ne {name expected actual : Text} (h : Mismatch context name expected actual)
    (hcontext : ∀ v, context.value? name = some v → v.Ordinary) : expected ≠ actual := by
  obtain ⟨kind, v, hv, hnot, rfl, rfl⟩ := h
  intro hnames
  have hof := ((hv.ordinary hcontext).kindName_eq_iff kind).mp hnames.symm
  exact Bool.false_ne_true (hnot.symm.trans hof)

/-- A run that binds defaults only, and reports a wrong kind only of a value that is not of it. -/
structure Discerns (context₀ : Context) (run : Run (Text × Context)) : Prop where
  context : ∀ written context, resultOf run = .ok (written, context) → context₀.LeadsTo context
  report : ∀ name expected actual,
    resultOf run = .error (.check (.wrongKind name expected actual)) →
      Mismatch context₀ name expected actual

theorem discerns_of_ok {run : Run (Text × Context)} {written : Text}
    (h : resultOf run = .ok (written, context)) (hcontext : context₀.LeadsTo context) :
    Discerns context₀ run := by
  constructor
  · intro written' context' h'
    rw [h] at h'
    obtain ⟨_, rfl⟩ := Prod.ext_iff.mp (Except.ok.inj h')
    exact hcontext
  · intro name expected actual h'
    rw [h] at h'
    exact nomatch h'

theorem discerns_of_error {run : Run (Text × Context)} {e : RenderError}
    (h : resultOf run = .error e)
    (he : ∀ name expected actual, e = .check (.wrongKind name expected actual) →
      Mismatch context₀ name expected actual) : Discerns context₀ run := by
  constructor
  · intro written context h'
    rw [h] at h'
    exact nomatch h'
  · intro name expected actual h'
    rw [h] at h'
    exact he name expected actual (Except.error.inj h')

theorem Discerns.congr {run run' : Run (Text × Context)} (h : resultOf run' = resultOf run)
    (hrun : Discerns context₀ run) : Discerns context₀ run' :=
  ⟨fun written context h' => hrun.context written context (h ▸ h'),
    fun name expected actual h' => hrun.report name expected actual (h ▸ h')⟩

/-- What reports a wrong kind is given a value, and names the kind of it. -/
theorem eq_kindName_of_reported? {function name expected actual : Text}
    {arguments : List (Option Value)}
    (h : reported? function arguments = some (.wrongKind name expected actual)) :
    ∃ v, arguments = [some (.string name), some (.string expected), some v] ∧
      actual = v.kindName := by
  rw [reported?.eq_def] at h
  split at h
  · split at h <;> exact nomatch h
  · split at h <;> exact nomatch h
  · rename_i v
    split at h
    · cases h
      exact ⟨v, rfl, rfl⟩
    · exact nomatch h
  · exact nomatch h

/-- Nothing else that is called reports. -/
theorem callFunction_eq_wrongKind {registry : Registry} {function : Value}
    {arguments : List (Option Value)} {name expected actual : Text}
    (h : callFunction registry function arguments
      = .error (.check (.wrongKind name expected actual))) :
    ∃ v, arguments = [some (.string name), some (.string expected), some v] ∧
      actual = v.kindName := by
  have hcall : (registry.call function arguments).mapError RenderError.call
      ≠ .error (.check (.wrongKind name expected actual)) := by
    cases registry.call function arguments <;> exact nofun
  rw [callFunction.eq_def] at h
  split at h
  · split at h
    · rename_i called _
      cases hreported : reported? called arguments with
      | none =>
        rw [hreported] at h
        exact nomatch h
      | some fault =>
        rw [hreported] at h
        cases h
        exact eq_kindName_of_reported? hreported
    · exact absurd h hcall
  · exact absurd h hcall
  · exact absurd h hcall
  · exact nomatch h

theorem outputText_ne_check {env : Environment} {e : Expr} {v : Option Value} {fault : CheckFault} :
    outputText env e v ≠ .error (.check fault) := by
  cases v with
  | some v =>
    rw [outputText]
    cases v.display <;> exact nofun
  | none =>
    rw [outputText.eq_def]
    dsimp only
    split
    · cases e <;> exact nofun
    · exact nofun

section runs

variable {env : Environment} {registry : Registry}

/-- The output of a call leaves the context, and reports a wrong kind only if the call has a name, a
kind and a value for its arguments. -/
theorem discerns_call (hcontext : context₀.LeadsTo context) {function : Text}
    {arguments : List Expr} {values : List (Option Value)}
    (hvalues : resultOf (evalAll registry context arguments) = .ok values)
    (h : ∀ name expected v, values = [some (.string name), some (.string expected), some v] →
      Mismatch context₀ name expected v.kindName) :
    Discerns context₀ (runNodes env registry context [.output (.call function arguments)]) := by
  have hrun : resultOf (runNodes env registry context [.output (.call function arguments)])
      = ((context.value? function).elim (.error (.undefined function))
          (callFunction registry · values)).bind fun v =>
            (outputText env (.call function arguments) v).map fun text => (text, context) := by
    rw [resultOf_runNodes_singleton, resultOf_output, resultOf_call, hvalues]
    rfl
  constructor
  · intro written context' hdone
    rw [hrun] at hdone
    obtain ⟨v, _, hdone⟩ := exists_of_bind_eq_ok hdone
    obtain ⟨text, _, hdone⟩ := exists_of_map_eq_ok hdone
    obtain rfl : context = context' := congrArg Prod.snd hdone
    exact hcontext
  · intro name expected actual hreport
    rw [hrun] at hreport
    rcases error_of_bind hreport with hcall | ⟨v, _, houtput⟩
    · cases hfunction : context.value? function with
      | none =>
        rw [hfunction] at hcall
        exact nomatch hcall
      | some f =>
        rw [hfunction] at hcall
        obtain ⟨v, hv, rfl⟩ := callFunction_eq_wrongKind hcall
        exact h name expected v hv
    · cases htext : outputText env (.call function arguments) v with
      | ok text =>
        rw [htext] at houtput
        exact nomatch houtput
      | error e =>
        rw [htext] at houtput
        obtain rfl := Except.error.inj houtput
        exact absurd htext outputText_ne_check

/-- A part under a condition that comes to a truth value. -/
theorem discerns_branch (hcontext : context₀.LeadsTo context) {condition : Expr} {holds : Bool}
    (hcondition : resultOf (eval registry context condition) = .ok (some (.bool holds)))
    {body : List Node}
    (hbody : holds = true → Discerns context₀ (runNodes env registry context body)) :
    Discerns context₀ (runNode env registry context (.branch condition body)) := by
  have hrun : resultOf (runNode env registry context (.branch condition body)) = _ :=
    resultOf_branch hcondition body
  cases holds with
  | false => exact discerns_of_ok hrun hcontext
  | true => exact (hbody rfl).congr hrun

/-- Nodes that discern wherever they are run do so one after another. -/
theorem discerns_runNodes {nodes : List Node}
    (h : ∀ node ∈ nodes, ∀ context, context₀.LeadsTo context →
      Discerns context₀ (runNode env registry context node))
    (hcontext : context₀.LeadsTo context) :
    Discerns context₀ (runNodes env registry context nodes) := by
  induction nodes generalizing context with
  | nil => exact discerns_of_ok rfl hcontext
  | cons node nodes ih =>
    have hnode := h node List.mem_cons_self context hcontext
    have hcut : resultOf (runNodes env registry context (node :: nodes)) = _ :=
      resultOf_runNodes_cons node nodes
    cases hfirst : resultOf (runNode env registry context node) with
    | error e =>
      rw [hfirst] at hcut
      refine discerns_of_error hcut fun name expected actual he => ?_
      exact hnode.report name expected actual (hfirst.trans (congrArg Except.error he))
    | ok done =>
      obtain ⟨text, context'⟩ := done
      have hnodes := ih (fun n hn => h n (List.mem_cons_of_mem node hn))
        (hnode.context text context' hfirst)
      rw [hfirst] at hcut
      simp only [Except.bind] at hcut
      cases hrest : resultOf (runNodes env registry context' nodes) with
      | error e =>
        rw [hrest] at hcut
        refine discerns_of_error hcut fun name expected actual he => ?_
        exact hnodes.report name expected actual (hrest.trans (congrArg Except.error he))
      | ok done =>
        obtain ⟨others, context''⟩ := done
        rw [hrest] at hcut
        exact discerns_of_ok hcut (hnodes.context others context'' hrest)

end runs

/-! ## 3. Guards -/

section guards

variable {env : Environment} {registry : Registry} (hcontext : context₀.LeadsTo context)

/-- The test of a type fails for a variable that is not bound. -/
theorem discerns_unbound {name test argument : Text} {body : List Node}
    (hname : context.value? name = none) (htest : test = kindTest ∨ test = classTest) :
    Discerns context₀
      (runNode env registry context (.branch (failsExpr name test argument) body)) := by
  have hrun : resultOf (runTest registry test [some (.string argument)] none)
      = .error .unsupported := by
    rcases htest with rfl | rfl <;> rfl
  have hcondition : resultOf (eval registry context (failsExpr name test argument))
      = .error .unsupported := by
    simp only [failsExpr, resultOf_and, resultOf_not, resultOf_test, resultOf_name, resultOf_const,
      resultOf_evalAll_nil, resultOf_evalAll_cons, runTest_none, resultOf_pure, Except.bind, hname,
      hrun]
    rfl
  have hbranch : resultOf (runNode env registry context
      (.branch (failsExpr name test argument) body)) = .error .unsupported := by
    rw [runNode, resultOf_bind, hcondition]
    rfl
  refine discerns_of_error hbranch fun name expected actual h => ?_
  cases h

include hcontext

theorem discerns_ofKind (name : Text) (kind : Kind) :
    Discerns context₀ (runNode env registry context (Guard.node (.ofKind name kind))) := by
  cases hv : context.value? name with
  | none => exact discerns_unbound hv (.inl rfl)
  | some v =>
    refine discerns_branch hcontext (resultOf_fails hv (runTest_kind kind v)) fun hholds => ?_
    rw [Bool.and_eq_true, Bool.not_eq_true'] at hholds
    refine discerns_call hcontext (resultOf_evalAll_value hv name _) fun name' expected w heq => ?_
    -- the call reports the very value that has failed the test
    simp only [List.cons.injEq, Option.some.injEq, Value.string.injEq, and_true] at heq
    obtain ⟨rfl, rfl, rfl⟩ := heq
    exact ⟨kind, v, hcontext name v hv, hholds.2, rfl, rfl⟩

theorem discerns_ofClass (name path : Text) :
    Discerns context₀ (runNode env registry context (Guard.node (.ofClass name path))) := by
  cases hv : context.value? name with
  | none => exact discerns_unbound hv (.inr rfl)
  | some v =>
    exact discerns_branch hcontext (resultOf_fails hv (runTest_class path v)) fun _ =>
      discerns_call hcontext (resultOf_evalAll_texts name path) nofun

theorem discerns_present (name : Text) :
    Discerns context₀ (runNode env registry context (Guard.node (.present name))) :=
  discerns_branch hcontext (resultOf_absent registry context name) fun _ =>
    discerns_call hcontext (resultOf_evalAll_text name) nofun

theorem discerns_guard {g : Guard} (hg : g.Writable) :
    Discerns context₀ (runNode env registry context g.node) := by
  cases g with
  | present name => exact discerns_present hcontext name
  | ofKind name kind => exact discerns_ofKind hcontext name kind
  | ofClass name path => exact discerns_ofClass hcontext name path
  | fallback name default =>
    refine discerns_of_ok (resultOf_fallback env registry context name
      (hg.default name default rfl)) ?_
    split
    · exact hcontext
    · exact hcontext.cons name default

end guards

end ViewContract.Template

namespace ViewContract

open Template Text
open ViewContract.Annotation (read sound_of_read)

/-! ## 4. The result -/

theorem discerns_guardText {env : Environment} (henv : env.Regular) {ds : List Declaration}
    (hsound : ∀ d ∈ ds, d.Sound) {text : Text} (htext : guardText env.delimiters ds = .ok text)
    (registry : Registry) (context : Context) :
    Discerns context (runText env registry context text) := by
  refine Discerns.congr (resultOf_runText henv hsound htext registry context) ?_
  refine discerns_runNodes (fun node hnode _ hcontext => ?_) (.refl context)
  obtain ⟨g, hg, rfl⟩ := List.mem_map.mp hnode
  exact discerns_guard hcontext (writable_of_guardText hsound htext g hg)

/-- **Kinds are told apart.** An ordinary value bears the name of a kind exactly if it is of that
kind, and it is of one kind at most; truth values and null are of none. So where the guards of
declarations report a variable of a wrong kind, and its value, if it has one, is ordinary, the kind
that is expected is not the one that is found. -/
theorem kinds_told_apart :
    (∀ v : Value, v.Ordinary → ∀ kind : Kind,
      (v.isOfKind kind = true ↔ v.kindName = kind.name.toList) ∧
        ∀ kind', v.isOfKind kind = true → v.isOfKind kind' = true → kind = kind') ∧
    (∀ kind : Kind, Value.null.isOfKind kind = false ∧ ∀ b, (Value.bool b).isOfKind kind = false) ∧
    ∀ (env : Environment) (ds : List Declaration) (text : Text), env.Regular →
      (∀ d ∈ ds, d.Sound) → guardText env.delimiters ds = .ok text →
      ∀ (registry : Registry) (context : Context) (name expected actual : Text),
        (∀ v, context.value? name = some v → v.Ordinary) →
        resultOf (runText env registry context text)
            = .error (.check (.wrongKind name expected actual)) →
          expected ≠ actual := by
  refine ⟨fun v hv kind => ⟨(hv.kindName_eq_iff kind).symm, fun kind' => hv.isOfKind_unique⟩,
    fun kind => ⟨Value.isOfKind_null kind, fun b => Value.isOfKind_bool b kind⟩, ?_⟩
  intro env ds text henv hsound htext registry context name expected actual hordinary hreport
  exact ((discerns_guardText henv hsound htext registry context).report name expected actual
    hreport).ne hordinary

/-- A text of a class that an application has called `int`. -/
def textNamedInt : Value :=
  .object { path := "app.int".toList, above := ["str".toList] }

/-- Such a text in the place of an integer is reported as a text. -/
theorem kinds_told_apart_of_textNamedInt :
    (textNamedInt.isOfKind .string = true ∧ textNamedInt.kindName = "string".toList ∧
      ∀ kind, textNamedInt.isOfKind kind = true → kind = .string) ∧
    ∃ ds text, (read .expression "int $n".toList).value = .ok ds ∧
      guardText {} ds = .ok text ∧
      resultOf (runText {} {} (Context.ofValues [(['n'], textNamedInt)]) text)
        = .error (.check (.wrongKind ['n'] "int".toList "string".toList)) ∧
      "int".toList ≠ "string".toList := by
  obtain ⟨hkinds, _, hguards⟩ := kinds_told_apart
  have hordinary : textNamedInt.Ordinary := ⟨by decide, by decide⟩
  have hof : textNamedInt.isOfKind .string = true := by decide
  refine ⟨⟨hof, (hkinds _ hordinary .string).1.mp hof,
    fun kind h => (hkinds _ hordinary kind).2 .string h hof⟩, ?_⟩
  have hread : (read .expression "int $n".toList).value
      = .ok [⟨['n'], true, some (.primitive .int), none, false⟩] := by
    decide +kernel
  obtain ⟨hsound, _⟩ := sound_of_read hread
  obtain ⟨text, htext⟩ : ∃ text, guardText ({} : Environment).delimiters
      [⟨['n'], true, some (.primitive .int), none, false⟩] = .ok text := ⟨_, rfl⟩
  have hrun : resultOf (runText {} {} (Context.ofValues [(['n'], textNamedInt)]) text)
      = .error (.check (.wrongKind ['n'] "int".toList "string".toList)) := by
    have hunmet : ¬ Declaration.Met {} (Context.ofValues [(['n'], textNamedInt)])
        ⟨['n'], true, some (.primitive .int), none, false⟩ := Bool.false_ne_true
    have hreports : (Context.ofValues [(['n'], textNamedInt)]).Reports :=
      reports_ofValues (by decide)
    exact fails_of_not_met regular_default (hsound _ List.mem_cons_self) htext hunmet hreports
  have hvalue : ∀ v, (Context.ofValues [(['n'], textNamedInt)]).value? ['n'] = some v →
      v.Ordinary := fun v hv => Option.some.inj hv ▸ hordinary
  exact ⟨_, text, hread, htext, hrun,
    hguards {} _ text regular_default hsound htext {} _ ['n'] _ _ hvalue hrun⟩

end ViewContract
