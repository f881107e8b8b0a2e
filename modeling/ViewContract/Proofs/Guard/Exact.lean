/-
ViewContract.Proofs.Guard.Exact — guards are exact.

The three parts of the development meet here: what an annotation declares, that the text of
guards is read back as guards, and what guards do to a context. Where the names of the functions
that report stand for them, an annotation's guards run through exactly if the context meets its
declarations (`guards_exact`), and the bindings after them are the settled ones, so that a second
run or another order makes no difference. A value of the rendering can take such a name; then guards
may go on where they should report, if that value can be called (`guards_pass_unmet`).

  §1 runs of a guard text.
  §2 the result.
-/
import ViewContract.Proofs.Guard.Met
import ViewContract.Proofs.Guard.Written
import ViewContract.Proofs.Template.Page

namespace ViewContract

open Template Text

/-! ## 1. Runs of a guard text -/

/-- A guard text run against a context, as a template is run once it is compiled. -/
def runText (env : Environment) (registry : Registry) (context : Context) (text : Text) :
    Run (Text × Context) := do
  let nodes ← Run.ofExcept (nodesOf env text)
  runNodes env registry context nodes

/-- What holds of the bindings after the guards of some declarations. -/
structure Settles (context context' : Context) (ds : List Declaration) : Prop where
  /-- A declared variable holds the value it was given, or else its default. -/
  bound : ∀ d ∈ ds, context'.value? d.name = some (d.settled context)
  /-- A required variable is not null. -/
  required : ∀ d ∈ ds, d.required = true → d.settled context ≠ .null
  /-- Other variables are as they were. -/
  others : ∀ name, (∀ d ∈ ds, d.name ≠ name) → context'.value? name = context.value? name

/-- What holds of the bindings after the guards, however they have come to run through. -/
structure Leaves (context context' : Context) (ds : List Declaration) : Prop where
  /-- A declared variable holds the value it was given, or else its default, or is as it was if it
  has no default and none is given. -/
  declared : ∀ d ∈ ds, context'.value? d.name = d.left? context
  /-- Other variables are as they were. -/
  others : ∀ name, (∀ d ∈ ds, d.name ≠ name) → context'.value? name = context.value? name

/-- Where guards can be written, so can the values that stand in for missing ones. -/
theorem writable_fallback {ds : List Declaration}
    (h : ∀ g ∈ ds.flatMap Declaration.guards, g.Writable) {d : Declaration} (hd : d ∈ ds)
    (hrequired : d.required = false) : d.fallback.Writable := by
  have hmem : d.presenceGuard ∈ ds.flatMap Declaration.guards :=
    List.mem_flatMap.mpr ⟨d, hd, List.mem_cons_self⟩
  refine (h _ hmem).default d.name d.fallback ?_
  rw [Declaration.presenceGuard, hrequired]
  rfl

/-- The guard text of sound declarations, names repeated or not, runs as their guards do. -/
theorem resultOf_runText {env : Environment} (henv : env.Regular) {ds : List Declaration}
    (hsound : ∀ d ∈ ds, d.Sound) {text : Text} (htext : guardText env.delimiters ds = .ok text)
    (registry : Registry) (context : Context) :
    resultOf (runText env registry context text)
      = resultOf (runNodes env registry context
          ((ds.flatMap Declaration.guards).map Guard.node)) := by
  have hnodes := nodesOf_guards henv (writable_of_guardText hsound htext) htext
  rw [runText, resultOf_bind, resultOf_ofExcept, hnodes]
  rfl

section runs

variable {env : Environment} (henv : env.Regular) {ds : List Declaration}
  (hsound : ∀ d ∈ ds, d.Sound) (hdistinct : (ds.map Declaration.name).Nodup) {text : Text}
  (htext : guardText env.delimiters ds = .ok text) {registry : Registry} {context : Context}

include henv hsound hdistinct htext

/-- The guard text of sound declarations runs through if they are met, and else reports the
first that is not. -/
theorem run_guardText :
    ((∀ d ∈ ds, d.Met registry context) →
      resultOf (runText env registry context text) = .ok ([], settledContext context ds)) ∧
    ((∃ d ∈ ds, ¬ d.Met registry context) → ∃ d, FirstUnmet registry context ds d ∧
      Fails context (runText env registry context text) (d.report context)) := by
  have hwritable := writable_of_guardText hsound htext
  simp only [Fails, resultOf_runText henv hsound htext]
  exact run_declarations hdistinct fun d => writable_fallback hwritable

theorem met_of_run (hreports : context.Reports) {done : Text × Context}
    (h : resultOf (runText env registry context text) = .ok done) :
    ∀ d ∈ ds, d.Met registry context := by
  by_contra hnot
  push Not at hnot
  obtain ⟨d, _, hfails⟩ := (run_guardText henv hsound hdistinct htext).2 hnot
  rw [hfails hreports] at h
  exact nomatch h

theorem report_of_run (hreports : context.Reports) {e : RenderError}
    (h : resultOf (runText env registry context text) = .error e) :
    ∃ d, FirstUnmet registry context ds d ∧ e = .check (d.report context) := by
  have hnot : ∃ d ∈ ds, ¬ d.Met registry context := by
    by_contra hall
    push Not at hall
    rw [(run_guardText henv hsound hdistinct htext).1 hall] at h
    exact nomatch h
  obtain ⟨d, hfirst, hfails⟩ := (run_guardText henv hsound hdistinct htext).2 hnot
  rw [hfails hreports] at h
  exact ⟨d, hfirst, (Except.error.inj h).symm⟩

theorem eq_settledContext_of_run (hreports : context.Reports) {written : Text}
    {context' : Context}
    (h : resultOf (runText env registry context text) = .ok (written, context')) :
    written = [] ∧ context' = settledContext context ds := by
  have hrun := (run_guardText henv hsound hdistinct htext).1
    (met_of_run henv hsound hdistinct htext hreports h)
  rw [hrun] at h
  obtain ⟨hwritten, hcontext⟩ := Prod.ext_iff.mp (Except.ok.inj h)
  exact ⟨hwritten.symm, hcontext.symm⟩

/-- In any context a guard text that runs through leaves the bindings that it should. -/
theorem leaves_of_run {written : Text} {context' : Context}
    (h : resultOf (runText env registry context text) = .ok (written, context')) :
    Leaves context context' ds := by
  have hwritable := writable_of_guardText hsound htext
  rw [resultOf_runText henv hsound htext] at h
  obtain rfl := settledContext_of_run (fun d => writable_fallback hwritable) h
  exact ⟨fun d hd => value?_settledContext hdistinct hd,
    fun name hname => value?_settledContext_of_not_mem hname⟩

end runs

/-- A declaration by itself is reported if it is not met. -/
theorem fails_of_not_met {env : Environment} (henv : env.Regular) {d : Declaration}
    (hsound : d.Sound) {text : Text} (htext : guardText env.delimiters [d] = .ok text)
    {registry : Registry} {context : Context} (hmet : ¬ d.Met registry context) :
    Fails context (runText env registry context text) (d.report context) := by
  obtain ⟨e, ⟨earlier, later, hcut, _⟩, hfails⟩ :=
    (run_guardText henv (List.forall_mem_singleton.mpr hsound) (List.nodup_singleton _) htext).2
      ⟨d, List.mem_singleton_self d, hmet⟩
  have hmem : e ∈ [d] := by
    rw [hcut]
    exact List.mem_append_right _ List.mem_cons_self
  rwa [List.mem_singleton.mp hmem] at hfails

theorem settles_settledContext {registry : Registry} {context : Context} {ds : List Declaration}
    (hdistinct : (ds.map Declaration.name).Nodup) (hmet : ∀ d ∈ ds, d.Met registry context) :
    Settles context (settledContext context ds) ds := by
  refine ⟨fun d hd => (value?_settledContext hdistinct hd).trans (left?_of_met (hmet d hd)),
    fun d hd hrequired => ?_, fun name hname => value?_settledContext_of_not_mem hname⟩
  have h := hmet d hd
  rw [Declaration.Met] at h
  cases hgiven : context.given? d.name with
  | some v =>
    rw [Declaration.settled, hgiven]
    exact (given?_eq_some.mp hgiven).2
  | none =>
    rw [hgiven] at h
    exact absurd (h.1.symm.trans hrequired) Bool.false_ne_true

/-- A context in which declarations are settled meets them again, and settles them in the same
way. -/
theorem met_of_settled {registry : Registry} {context context' : Context} {d : Declaration}
    (hmet : d.Met registry context) (hbound : context'.value? d.name = some (d.settled context)) :
    d.Met registry context' ∧ d.settled context' = d.settled context := by
  rw [Declaration.Met] at hmet ⊢
  rw [Declaration.settled] at hbound
  rw [Declaration.settled, Declaration.settled]
  cases hgiven : context.given? d.name with
  | some v =>
    rw [hgiven] at hmet hbound
    have hagain : context'.given? d.name = some v :=
      given?_eq_some.mpr ⟨hbound, (given?_eq_some.mp hgiven).2⟩
    rw [hagain]
    exact ⟨hmet, rfl⟩
  | none =>
    rw [hgiven] at hmet hbound
    by_cases hnull : d.fallback = .null
    · have hagain : context'.given? d.name = none := by
        rw [Context.given?, hbound, Option.getD_none, hnull]
        rfl
      rw [hagain]
      exact ⟨hmet, rfl⟩
    · have hagain : context'.given? d.name = some d.fallback.value :=
        given?_eq_some.mpr ⟨hbound, fun h => hnull (Literal.value_eq_null.mp h)⟩
      rw [hagain]
      exact ⟨hmet.2.resolve_left hnull, rfl⟩

theorem Settles.value?_eq {context context₁ context₂ : Context} {ds ds' : List Declaration}
    (hperm : ds'.Perm ds) (h₁ : Settles context context₁ ds) (h₂ : Settles context context₂ ds')
    (name : Text) : context₂.value? name = context₁.value? name := by
  by_cases hname : ∃ d ∈ ds, d.name = name
  · obtain ⟨d, hd, rfl⟩ := hname
    rw [h₁.bound d hd, h₂.bound d (hperm.mem_iff.mpr hd)]
  · push Not at hname
    rw [h₁.others name hname, h₂.others name fun d hd => hname d (hperm.mem_iff.mp hd)]

/-! ## 2. The result -/

namespace Annotation

/-- **Guards are exact.** Where the names of the functions that report stand for them, the guards of
an annotation run through exactly if its declarations are met by the context. Then they write
nothing, the declared variables hold their values or defaults, and other variables are unchanged; a
second run changes no binding, and neither does another order. Otherwise the first declaration that
is not met is reported.

In any context guards of declarations that are met run through and settle them, and guards that run
through leave the declared variables with their values or defaults, but for a required one without a
value, and other variables unchanged. -/
theorem guards_exact {form : Form} {body : Text} {ds : List Declaration}
    (hread : (read form body).value = .ok ds) {env : Environment} (henv : env.Regular)
    {text : Text} (htext : guardText env.delimiters ds = .ok text) (registry : Registry)
    (context : Context) :
    (context.Reports →
      ((∃ done, resultOf (runText env registry context text) = .ok done)
        ↔ ∀ d ∈ ds, d.Met registry context) ∧
      (∀ written context', resultOf (runText env registry context text) = .ok (written, context') →
        written = [] ∧ Settles context context' ds ∧
        ∃ context'', resultOf (runText env registry context' text) = .ok ([], context'') ∧
          ∀ name, context''.value? name = context'.value? name) ∧
      (∀ e, resultOf (runText env registry context text) = .error e →
        ∃ d, FirstUnmet registry context ds d ∧ e = .check (d.report context)) ∧
      (∀ ds' : List Declaration, ds'.Perm ds →
        ∃ text', guardText env.delimiters ds' = .ok text' ∧
          ((∃ done, resultOf (runText env registry context text') = .ok done)
            ↔ ∃ done, resultOf (runText env registry context text) = .ok done) ∧
          ∀ done done', resultOf (runText env registry context text) = .ok done →
            resultOf (runText env registry context text') = .ok done' →
            done'.1 = done.1 ∧ ∀ name, done'.2.value? name = done.2.value? name)) ∧
    ((∀ d ∈ ds, d.Met registry context) → ∃ context',
      resultOf (runText env registry context text) = .ok ([], context') ∧
        Settles context context' ds) ∧
    (∀ written context', resultOf (runText env registry context text) = .ok (written, context') →
      Leaves context context' ds) := by
  obtain ⟨hsound, hdistinct⟩ := sound_of_read hread
  have hruns : (∀ d ∈ ds, d.Met registry context) →
      resultOf (runText env registry context text) = .ok ([], settledContext context ds) :=
    (run_guardText henv hsound hdistinct htext).1
  refine ⟨fun hreports => ?_,
    fun hmet => ⟨_, hruns hmet, settles_settledContext hdistinct hmet⟩,
    fun written context' => leaves_of_run henv hsound hdistinct htext⟩
  have hsuccess : (∃ done, resultOf (runText env registry context text) = .ok done)
      ↔ ∀ d ∈ ds, d.Met registry context :=
    ⟨fun ⟨_, h⟩ => met_of_run henv hsound hdistinct htext hreports h, fun h => ⟨_, hruns h⟩⟩
  refine ⟨hsuccess, ?_, fun e => report_of_run henv hsound hdistinct htext hreports, ?_⟩
  · intro written context' h
    have hmet := met_of_run henv hsound hdistinct htext hreports h
    obtain ⟨rfl, rfl⟩ := eq_settledContext_of_run henv hsound hdistinct htext hreports h
    have hsettles := settles_settledContext hdistinct hmet
    have hagain : ∀ d ∈ ds, d.Met registry (settledContext context ds) ∧
        d.settled (settledContext context ds) = d.settled context :=
      fun d hd => met_of_settled (hmet d hd) (hsettles.bound d hd)
    have hmet' : ∀ d ∈ ds, d.Met registry (settledContext context ds) :=
      fun d hd => (hagain d hd).1
    have hsettles' := settles_settledContext hdistinct hmet'
    refine ⟨rfl, hsettles, _, (run_guardText henv hsound hdistinct htext).1 hmet', fun name => ?_⟩
    by_cases hname : ∃ d ∈ ds, d.name = name
    · obtain ⟨d, hd, rfl⟩ := hname
      rw [hsettles'.bound d hd, (hagain d hd).2, hsettles.bound d hd]
    · push Not at hname
      exact hsettles'.others name hname
  · intro ds' hperm
    have hactions := (exists_statements_iff env.delimiters _ 0).mp ⟨text, htext⟩
    obtain ⟨text', htext'⟩ := (exists_statements_iff env.delimiters
      (ds'.flatMap Declaration.guards) 0).mpr fun g hg =>
        hactions g ((hperm.flatMap_right Declaration.guards).mem_iff.mp hg)
    have hsound' : ∀ d ∈ ds', d.Sound := fun d hd => hsound d (hperm.mem_iff.mp hd)
    have hdistinct' : (ds'.map Declaration.name).Nodup :=
      (hperm.map Declaration.name).nodup_iff.mpr hdistinct
    refine ⟨text', htext', ?_, ?_⟩
    · rw [hsuccess]
      constructor
      · rintro ⟨_, h⟩ d hd
        exact met_of_run henv hsound' hdistinct' htext' hreports h d (hperm.mem_iff.mpr hd)
      · intro h
        exact ⟨_, (run_guardText henv hsound' hdistinct' htext').1
          fun d hd => h d (hperm.mem_iff.mp hd)⟩
    · rintro ⟨written, context₁⟩ ⟨written', context₂⟩ h h'
      have hmet := met_of_run henv hsound hdistinct htext hreports h
      have hmet' := met_of_run henv hsound' hdistinct' htext' hreports h'
      obtain ⟨rfl, rfl⟩ := eq_settledContext_of_run henv hsound hdistinct htext hreports h
      obtain ⟨rfl, rfl⟩ := eq_settledContext_of_run henv hsound' hdistinct' htext' hreports h'
      exact ⟨rfl, (settles_settledContext hdistinct hmet).value?_eq hperm
        (settles_settledContext hdistinct' hmet')⟩

/-- An optional variable in the usual environment: its guards run through without a value, and bind
the default. -/
theorem guards_exact_of_default :
    ∃ ds text, (read .expression "int $n = 3".toList).value = .ok ds ∧
      ({} : Environment).Regular ∧ guardText ({} : Environment).delimiters ds = .ok text ∧
      (Context.ofValues []).Reports ∧ (∀ d ∈ ds, d.Met {} (Context.ofValues [])) ∧
      ∃ context', resultOf (runText {} {} (Context.ofValues []) text) = .ok ([], context') ∧
        context'.value? ['n'] = some (.int 3) := by
  have hread : (read .expression "int $n = 3".toList).value
      = .ok [⟨['n'], false, some (.primitive .int), some (.int 3), false⟩] := by
    decide +kernel
  obtain ⟨text, htext⟩ : ∃ text, guardText ({} : Environment).delimiters
      [⟨['n'], false, some (.primitive .int), some (.int 3), false⟩] = .ok text := ⟨_, rfl⟩
  have hreports : (Context.ofValues []).Reports := reports_ofValues fun _ _ => rfl
  have hmet : ∀ d ∈ [(⟨['n'], false, some (.primitive .int), some (.int 3), false⟩ : Declaration)],
      d.Met {} (Context.ofValues []) := by
    intro d hd
    rw [List.mem_singleton.mp hd]
    exact ⟨rfl, .inr rfl⟩
  obtain ⟨hexact, _⟩ := guards_exact hread regular_default htext {} (Context.ofValues [])
  obtain ⟨hsuccess, hsettles, _⟩ := hexact hreports
  obtain ⟨⟨written, context'⟩, hrun⟩ := hsuccess.mpr hmet
  obtain ⟨rfl, hbound, _⟩ := hsettles written context' hrun
  refine ⟨_, text, hread, regular_default, htext, hreports, hmet, context', hrun, ?_⟩
  exact hbound.bound _ List.mem_cons_self

/-- An application in which a class of texts can be called, and gives the text that it is given. -/
def textsCalled : Registry where
  call function arguments :=
    match function, arguments with
    | .type _, [some (.string t)] => .ok (some (.string t))
    | _, _ => .error .raised

/-- Guards may run through without being met by the values of a rendering and the names that every
template knows. The class of texts in the place of the function that reports what is missing lets a
required variable be missing, and the template's own name is bound without a value for it. -/
theorem guards_pass_unmet :
    (∃ ds text, (read .expression "$x".toList).value = .ok ds ∧ guardText {} ds = .ok text ∧
      let values : Context := [(raiseUndefined, .type (.builtin "str"))]
      (∃ context', resultOf (runText {} textsCalled (Context.ofValues values) text)
          = .ok (['x'], context') ∧ context'.value? ['x'] = none) ∧
        ¬ ∀ d ∈ ds, d.Met textsCalled (values ++ globals)) ∧
    ∃ ds text, (read .expression "$self".toList).value = .ok ds ∧ guardText {} ds = .ok text ∧
      (∃ done, resultOf (runText {} {} (Context.ofValues []) text) = .ok done) ∧
        ¬ ∀ d ∈ ds, d.Met {} ([] ++ globals) := by
  constructor
  · have hread : (read .expression "$x".toList).value = .ok [⟨['x'], true, none, none, false⟩] := by
      decide +kernel
    obtain ⟨text, htext⟩ : ∃ text, guardText ({} : Environment).delimiters
        [⟨['x'], true, none, none, false⟩] = .ok text := ⟨_, rfl⟩
    refine ⟨_, text, hread, htext,
      ⟨Context.ofValues [(raiseUndefined, .type (.builtin "str"))], ?_, rfl⟩, fun hmet => ?_⟩
    · exact resultOf_runText regular_default (sound_of_read hread).1 htext textsCalled _
    · exact Bool.false_ne_true (hmet _ List.mem_cons_self).1.symm
  · have hread : (read .expression "$self".toList).value
        = .ok [⟨"self".toList, true, none, none, false⟩] := by
      decide +kernel
    obtain ⟨text, htext⟩ : ∃ text, guardText ({} : Environment).delimiters
        [⟨"self".toList, true, none, none, false⟩] = .ok text := ⟨_, rfl⟩
    refine ⟨_, text, hread, htext, ⟨([], Context.ofValues []), ?_⟩, fun hmet => ?_⟩
    · exact resultOf_runText regular_default (sound_of_read hread).1 htext {} _
    · exact Bool.false_ne_true (hmet _ List.mem_cons_self).1.symm

end Annotation

end ViewContract
