/-
ViewContract.Proofs.Guard.Met — what the guards of declarations decide.

The guards of one declaration are a check for presence, which may bind the default, and a check
of the type, which sees what the first has bound. Run together they succeed if the declaration is
`Met` by the context before them, and report it if it is not, where the context lets them report.
In any context a run that goes through leaves what `after` describes. The rest is a frame argument:
a declaration that is met or not met stays so when another variable is bound.

  §1 what is asked of a variable, what it holds afterwards, and what is reported of it.
  §2 one declaration (`run_declaration`, `after_of_run`).
  §3 several declarations with different names (`run_declarations`), and what is bound after
     them in any context (`settledContext_of_run`, `value?_settledContext`).
-/
import ViewContract.Proofs.Guard.Run
import Mathlib.Data.List.Nodup

namespace ViewContract

open Template Text

/-! ## 1. What is asked of a variable -/

/-- Whether a type accepts a value; a path that names no class accepts none. -/
def TypeRef.accepts (registry : Registry) : TypeRef → Value → Bool
  | .primitive kind, v => v.isOfKind kind
  | .ofClass path, v => (v.isInstance registry path).value

namespace Declaration

/-- Whether the type of a declaration, if it has one, accepts a value. -/
def accepts (registry : Registry) (d : Declaration) (v : Value) : Bool :=
  d.type.all fun type => type.accepts registry v

/-- The default, where none is null. -/
def fallback (d : Declaration) : Literal :=
  d.default.getD .null

/-- A declaration is met by a context: the value that is given is accepted, or none is given
and none is required, and then the default is null or accepted. -/
def Met (registry : Registry) (context : Context) (d : Declaration) : Prop :=
  match context.given? d.name with
  | some v => d.accepts registry v = true
  | none => d.required = false ∧ (d.fallback = .null ∨ d.accepts registry d.fallback.value = true)

/-- What the variable of a declaration holds once it is met. -/
def settled (context : Context) (d : Declaration) : Value :=
  (context.given? d.name).getD d.fallback.value

/-- The context after the guards of a declaration: a default is bound where it is missing, and
nothing in the place of a required value. -/
def after (context : Context) (d : Declaration) : Context :=
  if (context.given? d.name).isSome || d.required then context
  else (d.name, d.fallback.value) :: context

/-- What the variable of a declaration holds then, be the declaration met or not. -/
def left? (context : Context) (d : Declaration) : Option Value :=
  if (context.given? d.name).isSome || d.required then context.value? d.name
  else some d.fallback.value

/-- What is reported of a value that the type of a declaration does not accept. -/
def typeFault (d : Declaration) (v : Value) : CheckFault :=
  match d.type with
  | none => .missing d.name
  | some (.primitive kind) => .wrongKind d.name kind.name.toList v.kindName
  | some (.ofClass path) => .wrongClass d.name path

/-- What is reported of a declaration that is not met. -/
def report (context : Context) (d : Declaration) : CheckFault :=
  if d.required && (context.given? d.name).isNone then .missing d.name
  else d.typeFault (d.settled context)

end Declaration

end ViewContract

namespace ViewContract.Template

open ViewContract.Text

/-! ## 2. One declaration -/

section declarations

variable {env : Environment} {registry : Registry} {context : Context} {name : Text}

/-- The check of a type lets null pass. -/
theorem resultOf_typeGuards (env : Environment) (registry : Registry) {d : Declaration}
    {v : Value} (hv : context.value? d.name = some v) :
    if (context.given? d.name).isSome && !d.accepts registry v then
      Fails context (runNodes env registry context (d.typeGuards.map Guard.node)) (d.typeFault v)
    else resultOf (runNodes env registry context (d.typeGuards.map Guard.node))
      = .ok ([], context) := by
  rw [Declaration.accepts, Declaration.typeGuards.eq_def, Declaration.typeFault, Fails]
  cases d.type with
  | none =>
    rw [Option.all_none, Bool.not_true, Bool.and_false]
    rfl
  | some type =>
    cases type with
    | primitive kind =>
      have hreport := resultOf_report env (resultOf_fails hv (runTest_kind kind v))
        (fails_raiseWrongType registry hv kind.name.toList)
      rw [List.map_singleton, resultOf_runNodes_singleton]
      exact hreport
    | ofClass path =>
      have hreport := resultOf_report env (resultOf_fails hv (runTest_class path v))
        (fails_raiseWrongClass registry context d.name path)
      rw [List.map_singleton, resultOf_runNodes_singleton]
      exact hreport

/-- A presence check that passes leaves the rest to the check of the type. -/
theorem run_of_presence {d : Declaration} {context' : Context} {v : Value}
    (hv : context'.value? d.name = some v) (hreports : context.Reports → context'.Reports)
    (hpresence : resultOf (runNode env registry context d.presenceGuard.node)
      = .ok ([], context')) :
    if (context'.given? d.name).isSome && !d.accepts registry v then
      Fails context (runNodes env registry context (d.guards.map Guard.node)) (d.typeFault v)
    else
      resultOf (runNodes env registry context (d.guards.map Guard.node)) = .ok ([], context') := by
  have htypes := resultOf_typeGuards env registry hv
  have hcut : d.guards.map Guard.node = d.presenceGuard.node :: d.typeGuards.map Guard.node := rfl
  rw [Fails, hcut, resultOf_runNodes_cons, hpresence]
  split at htypes
  · rw [if_pos ‹_›]
    intro h
    simp only [Except.bind, htypes (hreports h), Except.map]
  · rw [if_neg ‹_›]
    simp only [Except.bind, htypes, Except.map, List.nil_append]

/-- The guards of a declaration succeed if it is met, and report it if it is not. -/
def Decides (env : Environment) (registry : Registry) (context : Context) (d : Declaration) :
    Prop :=
  (d.Met registry context →
    resultOf (runNodes env registry context (d.guards.map Guard.node))
      = .ok ([], d.after context)) ∧
  (¬ d.Met registry context →
    Fails context (runNodes env registry context (d.guards.map Guard.node)) (d.report context))

/-- A value that is given stays and is checked. -/
theorem decides_of_given {d : Declaration}
    (hdefault : d.required = false → d.fallback.Writable) {v : Value}
    (hgiven : context.given? d.name = some v) : Decides env registry context d := by
  have hmissing : resultOf (eval registry context (absentExpr d.name))
      = .ok (some (.bool (context.given? d.name).isNone)) := resultOf_absent registry context d.name
  have hpresence : resultOf (runNode env registry context d.presenceGuard.node)
      = .ok ([], context) := by
    rw [Declaration.presenceGuard]
    split
    · have hreport := resultOf_report env hmissing (fails_raiseUndefined registry context d.name)
      rw [hgiven] at hreport
      exact hreport
    · have hrequired : d.required = false := by simpa using ‹¬ d.required = true›
      have hassign := resultOf_fallback env registry context d.name (hdefault hrequired)
      rw [hgiven] at hassign
      exact hassign
  have hrun := run_of_presence (given?_eq_some.mp hgiven).1 id hpresence
  have hafter : d.after context = context := by
    rw [Declaration.after, hgiven]
    rfl
  have hmet : d.Met registry context ↔ d.accepts registry v = true := by
    rw [Declaration.Met, hgiven]
  have hreport : d.report context = d.typeFault v := by
    rw [Declaration.report, Declaration.settled, hgiven, Option.isNone_some, Bool.and_false]
    rfl
  rw [hgiven, Option.isSome_some, Bool.true_and] at hrun
  rw [Decides, hmet, hafter, hreport]
  cases haccepts : d.accepts registry v with
  | true =>
    rw [haccepts] at hrun
    exact ⟨fun _ => hrun, fun h => absurd rfl h⟩
  | false =>
    rw [haccepts] at hrun
    exact ⟨nofun, fun _ => hrun⟩

/-- A missing value is reported if it is required. -/
theorem decides_of_required {d : Declaration} (hgiven : context.given? d.name = none)
    (hrequired : d.required = true) : Decides env registry context d := by
  have hmissing := resultOf_report env (resultOf_absent registry context d.name)
    (fails_raiseUndefined registry context d.name)
  rw [hgiven] at hmissing
  have hpresence : Fails context (runNode env registry context d.presenceGuard.node)
      (.missing d.name) := by
    rw [Declaration.presenceGuard, hrequired, if_pos rfl]
    exact hmissing
  have hmet : ¬ d.Met registry context := by
    rw [Declaration.Met, hgiven]
    rintro ⟨h, -⟩
    exact Bool.false_ne_true (h.symm.trans hrequired)
  have hreport : d.report context = .missing d.name := by
    rw [Declaration.report, hrequired, hgiven]
    rfl
  refine ⟨fun h => absurd h hmet, fun _ hreports => ?_⟩
  have hcut : d.guards.map Guard.node = d.presenceGuard.node :: d.typeGuards.map Guard.node := rfl
  rw [hcut, resultOf_runNodes_cons, hpresence hreports, hreport]
  rfl

/-- Otherwise the default takes its place and is checked, unless it is null. -/
theorem decides_of_optional {d : Declaration} (hdefault : d.fallback.Writable)
    (hgiven : context.given? d.name = none) (hrequired : d.required = false) :
    Decides env registry context d := by
  have hassign := resultOf_fallback env registry context d.name hdefault
  rw [hgiven] at hassign
  have hpresence : resultOf (runNode env registry context d.presenceGuard.node)
      = .ok ([], (d.name, d.fallback.value) :: context) := by
    rw [Declaration.presenceGuard, hrequired, if_neg Bool.false_ne_true]
    exact hassign
  have hrun := run_of_presence (value?_cons_self d.name d.fallback.value)
    (reports_cons hgiven d.fallback.value) hpresence
  have hafter : d.after context = (d.name, d.fallback.value) :: context := by
    rw [Declaration.after, hgiven, hrequired]
    rfl
  have hmet : d.Met registry context
      ↔ d.fallback = .null ∨ d.accepts registry d.fallback.value = true := by
    rw [Declaration.Met, hgiven]
    exact and_iff_right hrequired
  have hreport : d.report context = d.typeFault d.fallback.value := by
    rw [Declaration.report, Declaration.settled, hgiven, hrequired]
    rfl
  rw [Decides, hmet, hafter, hreport]
  by_cases hnull : d.fallback = .null
  · have hempty : Context.given? ((d.name, d.fallback.value) :: context) d.name = none := by
      rw [Context.given?, value?_cons_self, hnull]
      rfl
    rw [hempty] at hrun
    exact ⟨fun _ => hrun, fun h => absurd (.inl hnull) h⟩
  · have hbound : Context.given? ((d.name, d.fallback.value) :: context) d.name
        = some d.fallback.value :=
      given?_eq_some.mpr ⟨value?_cons_self _ _, fun h => hnull (Literal.value_eq_null.mp h)⟩
    rw [hbound, Option.isSome_some, Bool.true_and] at hrun
    cases haccepts : d.accepts registry d.fallback.value with
    | true =>
      rw [haccepts] at hrun
      exact ⟨fun _ => hrun, fun h => absurd (.inr rfl) h⟩
    | false =>
      rw [haccepts] at hrun
      exact ⟨fun h => absurd (h.resolve_left hnull) Bool.false_ne_true, fun _ => hrun⟩

/-- The guards of a declaration decide it. -/
theorem run_declaration {d : Declaration} (hdefault : d.required = false → d.fallback.Writable) :
    Decides env registry context d := by
  cases hgiven : context.given? d.name with
  | some v => exact decides_of_given hdefault hgiven
  | none =>
    cases hrequired : d.required with
    | true => exact decides_of_required hgiven hrequired
    | false => exact decides_of_optional (hdefault hrequired) hgiven hrequired

/-- In any context: a check of the type leaves the context, if it does not fail. -/
theorem context_of_typeGuards {d : Declaration} {written : Text} {context' : Context}
    (h : resultOf (runNodes env registry context (d.typeGuards.map Guard.node))
      = .ok (written, context')) : context' = context := by
  rw [Declaration.typeGuards.eq_def] at h
  cases htype : d.type with
  | none =>
    rw [htype] at h
    exact (congrArg Prod.snd (Except.ok.inj h)).symm
  | some type =>
    cases type
    all_goals
      rw [htype, List.map_singleton, resultOf_runNodes_singleton] at h
      exact context_of_output h

/-- **In any context the guards of a declaration bind its default or nothing**, if they do not
fail. -/
theorem after_of_run {d : Declaration} (hdefault : d.required = false → d.fallback.Writable)
    {written : Text} {context' : Context}
    (h : resultOf (runNodes env registry context (d.guards.map Guard.node))
      = .ok (written, context')) : context' = d.after context := by
  have hcut : d.guards.map Guard.node = d.presenceGuard.node :: d.typeGuards.map Guard.node := rfl
  rw [hcut, resultOf_runNodes_cons] at h
  obtain ⟨⟨text, between⟩, hpresence, h⟩ := exists_of_bind_eq_ok h
  obtain ⟨⟨others, context''⟩, htypes, h⟩ := exists_of_map_eq_ok h
  obtain rfl : context'' = context' := congrArg Prod.snd h
  rw [context_of_typeGuards htypes, Declaration.after]
  rw [Declaration.presenceGuard] at hpresence
  cases hrequired : d.required with
  | true =>
    rw [hrequired, if_pos rfl] at hpresence
    rw [context_of_output hpresence, Bool.or_true, if_pos rfl]
  | false =>
    have hassign := resultOf_fallback env registry context d.name (hdefault hrequired)
    rw [hrequired, if_neg Bool.false_ne_true] at hpresence
    rw [Bool.or_false]
    exact (congrArg Prod.snd (Except.ok.inj (hassign.symm.trans hpresence))).symm

end declarations

/-! ## 3. Several declarations -/

section lists

variable {env : Environment} {registry : Registry} {context : Context}

/-- Another variable keeps its value. -/
theorem value?_after_of_ne {d : Declaration} {name : Text} (h : name ≠ d.name) :
    (d.after context).value? name = context.value? name := by
  rw [Declaration.after]
  split
  · rfl
  · exact value?_cons_of_ne h _

theorem value?_after_self (d : Declaration) :
    (d.after context).value? d.name = d.left? context := by
  rw [Declaration.after, Declaration.left?]
  split
  · rfl
  · exact value?_cons_self _ _

/-- A declaration that is met leaves its variable bound. -/
theorem left?_of_met {d : Declaration} (h : d.Met registry context) :
    d.left? context = some (d.settled context) := by
  rw [Declaration.Met] at h
  rw [Declaration.left?, Declaration.settled]
  cases hgiven : context.given? d.name with
  | some v => exact (given?_eq_some.mp hgiven).1
  | none =>
    rw [hgiven] at h
    rw [h.1]
    rfl

theorem met_congr {context context' : Context} {d : Declaration}
    (h : context.value? d.name = context'.value? d.name) :
    d.Met registry context ↔ d.Met registry context' := by
  rw [Declaration.Met, Declaration.Met, given?_congr h]

/-- What is bound after the guards of some declarations. -/
def settledContext (context : Context) (ds : List Declaration) : Context :=
  ds.foldl (fun context d => d.after context) context

theorem value?_settledContext_of_not_mem {ds : List Declaration} {name : Text}
    (h : ∀ d ∈ ds, d.name ≠ name) :
    (settledContext context ds).value? name = context.value? name := by
  induction ds generalizing context with
  | nil => rfl
  | cons d ds ih =>
    rw [settledContext, List.foldl_cons, ← settledContext,
      ih fun d' hd' => h d' (List.mem_cons_of_mem d hd')]
    exact value?_after_of_ne (h d List.mem_cons_self).symm

/-- Each declared variable holds what its declaration leaves it. -/
theorem value?_settledContext {ds : List Declaration} (hdistinct : (ds.map Declaration.name).Nodup)
    {d : Declaration} (hd : d ∈ ds) :
    (settledContext context ds).value? d.name = d.left? context := by
  induction ds generalizing context with
  | nil => exact absurd hd List.not_mem_nil
  | cons e ds ih =>
    rw [List.map_cons, List.nodup_cons] at hdistinct
    rw [settledContext, List.foldl_cons, ← settledContext]
    rcases List.mem_cons.mp hd with rfl | hd
    · have hother : ∀ d' ∈ ds, d'.name ≠ d.name := fun d' hd' h =>
        hdistinct.1 (h ▸ List.mem_map_of_mem hd')
      rw [value?_settledContext_of_not_mem hother]
      exact value?_after_self d
    · have hne : d.name ≠ e.name := fun h => hdistinct.1 (h ▸ List.mem_map_of_mem hd)
      have hvalue : (e.after context).value? d.name = context.value? d.name :=
        value?_after_of_ne hne
      rw [ih hdistinct.2 hd, Declaration.left?, Declaration.left?, given?_congr hvalue, hvalue]

/-- The first of several declarations that a context does not meet. -/
def FirstUnmet (registry : Registry) (context : Context) (ds : List Declaration)
    (d : Declaration) : Prop :=
  ∃ earlier later, ds = earlier ++ d :: later ∧ (∀ d' ∈ earlier, d'.Met registry context) ∧
    ¬ d.Met registry context

theorem Context.Reports.after {d : Declaration} (h : context.Reports) :
    (d.after context).Reports := by
  rw [Declaration.after]
  split
  · exact h
  · rename_i hbinds
    rw [Bool.or_eq_true, not_or] at hbinds
    exact reports_cons (by simpa using hbinds.1) _ h

theorem report_congr {context context' : Context} {d : Declaration}
    (h : context.value? d.name = context'.value? d.name) :
    d.report context = d.report context' := by
  rw [Declaration.report, Declaration.report, Declaration.settled, Declaration.settled,
    given?_congr h]

/-- The guards of declarations with different names succeed if all of them are met by the
context before the first, and else report the first that is not. -/
theorem run_declarations {ds : List Declaration} (hdistinct : (ds.map Declaration.name).Nodup)
    (hdefaults : ∀ d ∈ ds, d.required = false → d.fallback.Writable) :
    ((∀ d ∈ ds, d.Met registry context) →
      resultOf (runNodes env registry context ((ds.flatMap Declaration.guards).map Guard.node))
        = .ok ([], settledContext context ds)) ∧
    ((∃ d ∈ ds, ¬ d.Met registry context) → ∃ d, FirstUnmet registry context ds d ∧
      Fails context (runNodes env registry context ((ds.flatMap Declaration.guards).map Guard.node))
        (d.report context)) := by
  induction ds generalizing context with
  | nil => exact ⟨fun _ => rfl, fun ⟨d, hd, _⟩ => absurd hd List.not_mem_nil⟩
  | cons d ds ih =>
    rw [List.map_cons, List.nodup_cons] at hdistinct
    obtain ⟨hmet, hunmet⟩ : Decides env registry context d :=
      run_declaration (hdefaults d List.mem_cons_self)
    obtain ⟨ihmet, ihunmet⟩ := @ih (d.after context) hdistinct.2
      fun d' hd' => hdefaults d' (List.mem_cons_of_mem d hd')
    -- binding this variable changes nothing for the other declarations
    have hother : ∀ d' ∈ ds, (d.after context).value? d'.name = context.value? d'.name :=
      fun d' hd' => value?_after_of_ne fun h => hdistinct.1 (h ▸ List.mem_map_of_mem hd')
    have hframe : ∀ d' ∈ ds, (d'.Met registry (d.after context) ↔ d'.Met registry context) :=
      fun d' hd' => met_congr (hother d' hd')
    rw [List.flatMap_cons, List.map_append]
    by_cases hd : d.Met registry context
    · constructor
      · intro hall
        rw [resultOf_runNodes_append, hmet hd]
        simp only [Except.bind]
        rw [ihmet fun d' hd' => (hframe d' hd').mpr (hall d' (List.mem_cons_of_mem d hd'))]
        rfl
      · rintro ⟨d', hd', hnot⟩
        have hlater : d' ∈ ds := (List.mem_cons.mp hd').resolve_left (by rintro rfl; exact hnot hd)
        obtain ⟨f, ⟨earlier, later, rfl, hearlier, hf⟩, hfails⟩ :=
          ihunmet ⟨d', hlater, fun h => hnot ((hframe d' hlater).mp h)⟩
        have hmem : f ∈ earlier ++ f :: later := List.mem_append_right _ List.mem_cons_self
        refine ⟨f, ⟨d :: earlier, later, rfl, ?_, fun h => hf ((hframe f hmem).mpr h)⟩,
          fun hreports => ?_⟩
        · intro g hg
          rcases List.mem_cons.mp hg with rfl | hg
          · exact hd
          · exact (hframe g (List.mem_append_left _ hg)).mp (hearlier g hg)
        · rw [resultOf_runNodes_append, hmet hd]
          simp only [Except.bind, hfails hreports.after, report_congr (hother f hmem)]
          rfl
    · refine ⟨fun hall => absurd (hall d List.mem_cons_self) hd, fun _ =>
        ⟨d, ⟨[], ds, rfl, fun _ h => absurd h List.not_mem_nil, hd⟩, fun hreports => ?_⟩⟩
      rw [resultOf_runNodes_append, hunmet hd hreports]
      rfl

/-- **In any context the guards of several declarations leave the settled one**, if they do not
fail. -/
theorem settledContext_of_run {ds : List Declaration}
    (hdefaults : ∀ d ∈ ds, d.required = false → d.fallback.Writable) {written : Text}
    {context' : Context}
    (h : resultOf (runNodes env registry context ((ds.flatMap Declaration.guards).map Guard.node))
      = .ok (written, context')) : context' = settledContext context ds := by
  induction ds generalizing context written with
  | nil => exact (congrArg Prod.snd (Except.ok.inj h)).symm
  | cons d ds ih =>
    rw [List.flatMap_cons, List.map_append, resultOf_runNodes_append] at h
    obtain ⟨⟨text, between⟩, hfirst, h⟩ := exists_of_bind_eq_ok h
    obtain ⟨⟨others, context''⟩, hlater, h⟩ := exists_of_map_eq_ok h
    obtain rfl : context'' = context' := congrArg Prod.snd h
    obtain rfl := after_of_run (hdefaults d List.mem_cons_self) hfirst
    exact ih (fun d' hd' => hdefaults d' (List.mem_cons_of_mem d hd')) hlater

end lists

end ViewContract.Template
