/-
ViewContract.Proofs.Guard.Default — variables that are left to their default.

Without a value an optional variable is given its default, and the guard of its type looks at the
default as it looks at a value. So a default that is neither null nor of the kind of its variable is
reported wherever the variable is missing.
-/
import ViewContract.Proofs.Guard.Exact

namespace ViewContract

open Template Text

/-- An optional variable of a kind with a default. -/
structure Declaration.HasDefault (d : Declaration) (kind : Kind) (l : Literal) : Prop where
  optional : d.required = false
  type : d.type = some (.primitive kind)
  default : d.default = some l

namespace Declaration.HasDefault

variable {d : Declaration} {kind : Kind} {l : Literal} (hd : d.HasDefault kind l)

section met

include hd

theorem fallback_eq : d.fallback = l := by
  rw [Declaration.fallback, hd.default]
  rfl

theorem accepts_eq (registry : Registry) (v : Value) : d.accepts registry v = v.isOfKind kind := by
  rw [Declaration.accepts, hd.type]
  rfl

variable {context : Context} (habsent : context.given? d.name = none)

include habsent

theorem settled_eq : d.settled context = l.value := by
  rw [Declaration.settled, habsent, hd.fallback_eq]
  rfl

/-- Without a value the default decides: it is null or of the kind. -/
theorem met_iff (registry : Registry) :
    d.Met registry context ↔ l = .null ∨ l.value.isOfKind kind = true := by
  rw [Declaration.Met, habsent, hd.fallback_eq, hd.accepts_eq]
  exact and_iff_right hd.optional

theorem report_eq : d.report context = .wrongKind d.name kind.name.toList l.value.kindName := by
  rw [Declaration.report, hd.optional, hd.settled_eq habsent, Declaration.typeFault, hd.type]
  rfl

end met

section run

variable {env : Environment} (henv : env.Regular) (hsound : d.Sound) {text : Text}
  (htext : guardText env.delimiters [d] = .ok text) (registry : Registry)
  {context : Context} (habsent : context.given? d.name = none)

include hd henv hsound htext habsent

/-- A default that is null or of the kind is bound. -/
theorem run_binds (hfits : l = .null ∨ l.value.isOfKind kind = true) :
    ∃ context', resultOf (runText env registry context text) = .ok ([], context') ∧
      context'.value? d.name = some l.value := by
  have hmet : ∀ e ∈ [d], e.Met registry context :=
    List.forall_mem_singleton.mpr ((hd.met_iff habsent registry).mpr hfits)
  have hdistinct : ([d].map Declaration.name).Nodup := List.nodup_singleton _
  refine ⟨_, (run_guardText henv (List.forall_mem_singleton.mpr hsound) hdistinct htext).1 hmet, ?_⟩
  have hbound : (settledContext context [d]).value? d.name = some (d.settled context) :=
    (value?_settledContext hdistinct (List.mem_singleton_self d)).trans
      (left?_of_met (hmet d (List.mem_singleton_self d)))
  rwa [hd.settled_eq habsent] at hbound

/-- A default of another kind is reported. -/
theorem run_fails (hnull : l ≠ .null) (hkind : l.value.isOfKind kind = false) :
    Fails context (runText env registry context text)
      (.wrongKind d.name kind.name.toList l.value.kindName) := by
  have hunmet : ¬ d.Met registry context := by
    rw [hd.met_iff habsent, not_or]
    exact ⟨hnull, by simp [hkind]⟩
  have hfails := fails_of_not_met henv hsound htext hunmet
  rwa [hd.report_eq habsent] at hfails

end run

end Declaration.HasDefault

end ViewContract
