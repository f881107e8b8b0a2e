/-
ViewContract.Proofs.InRange — readings that stay in range.

A body that cannot be read is refused, except for what is out of range, and that can come from few
places. Two notions say where:

  §1 a reading that is in range (`InRange`), whatever is read, and the steps before or after it.
  §2 a list that is gone through up to the first member that stops it (`StopsAt`).
-/
import ViewContract.Grammar

namespace ViewContract

/-! ## 1. Readings -/

/-- A reading that is not out of range, with what holds of its result. -/
def InRange {α : Type} (P : α → Prop) : Except BodyError α → Prop
  | .ok a => P a
  | .error (.range _) => False
  | .error _ => True

section inRange

variable {α β : Type} {P : α → Prop} {Q : β → Prop}

theorem InRange.ne {x : Except BodyError α} (h : InRange P x) (fault : RangeFault) :
    x ≠ .error (.range fault) := by
  rintro rfl
  exact h

/-- Two steps in range are in range. -/
theorem InRange.bind {x : Except BodyError α} {f : α → Except BodyError β} (hx : InRange P x)
    (hf : ∀ a, InRange Q (f a)) : InRange Q (x >>= f) := by
  cases x with
  | ok a => exact hf a
  | error e =>
    cases e with
    | range fault => exact hx.elim
    | _ => exact trivial

/-- A step that follows one in range is the one that is out of range. -/
theorem InRange.bind_eq_range_iff {x : Except BodyError α} {f : α → Except BodyError β}
    (hx : InRange P x) {fault : RangeFault} :
    x >>= f = .error (.range fault) ↔ ∃ a, x = .ok a ∧ f a = .error (.range fault) := by
  cases x with
  | ok a =>
    exact ⟨fun h => ⟨a, rfl, h⟩, fun ⟨_, ha, h⟩ => Except.ok.inj ha ▸ h⟩
  | error e =>
    refine iff_of_false (fun h => ?_) fun ⟨_, ha, _⟩ => nomatch ha
    obtain rfl := Except.error.inj h
    exact hx

/-- A step that is followed by one in range is the one that is out of range. -/
theorem bind_eq_range_iff {x : Except BodyError α} {f : α → Except BodyError β}
    (hf : ∀ a, InRange Q (f a)) {fault : RangeFault} :
    x >>= f = .error (.range fault) ↔ x = .error (.range fault) := by
  cases x with
  | ok a => exact iff_of_false ((hf a).ne fault) nofun
  | error e =>
    exact ⟨fun h => congrArg _ (Except.error.inj h), fun h => congrArg _ (Except.error.inj h)⟩

theorem inRange_ok (a : α) : InRange (fun _ => True) (.ok a) :=
  trivial

theorem inRange_mapError {ε : Type} (x : Except ε α) (f : ε → GrammarFault) :
    InRange (fun _ => True) (x.mapError fun e => .grammar (f e)) := by
  cases x <;> exact trivial

theorem inRange_grammar (x : Except GrammarFault α) :
    InRange (fun _ => True) (x.mapError .grammar) :=
  inRange_mapError x id

theorem inRange_inBody (d : Declaration) : InRange (fun _ => True) d.inBody := by
  rw [Declaration.inBody]
  cases d.validate <;> exact trivial

theorem inRange_distinct (ds : List Declaration) : InRange (fun _ => True) (distinct ds) := by
  rw [distinct]
  cases firstDuplicate? [] ds <;> exact trivial

end inRange

/-! ## 2. The first member that stops a list -/

/-- Going through a list one passes some members and stops at the next. -/
def StopsAt {α : Type} (passes stops : α → Prop) (l : List α) : Prop :=
  ∃ before a after, l = before ++ a :: after ∧ (∀ b ∈ before, passes b) ∧ stops a

section stopsAt

variable {α : Type} {passes stops : α → Prop}

theorem not_stopsAt_nil : ¬ StopsAt passes stops [] := by
  rintro ⟨before, a, after, h, _⟩
  exact absurd h (by simp)

theorem stopsAt_cons {a : α} {l : List α} :
    StopsAt passes stops (a :: l) ↔ stops a ∨ passes a ∧ StopsAt passes stops l := by
  constructor
  · rintro ⟨before, b, after, h, hbefore, hb⟩
    cases before with
    | nil =>
      obtain ⟨rfl, rfl⟩ := List.cons.inj h
      exact .inl hb
    | cons c before =>
      obtain ⟨rfl, rfl⟩ := List.cons.inj h
      exact .inr ⟨hbefore a List.mem_cons_self, before, b, after, rfl,
        fun d hd => hbefore d (List.mem_cons_of_mem a hd), hb⟩
  · rintro (ha | ⟨ha, before, b, after, rfl, hbefore, hb⟩)
    · exact ⟨[], a, l, rfl, fun _ h => absurd h List.not_mem_nil, ha⟩
    · exact ⟨a :: before, b, after, rfl, List.forall_mem_cons.mpr ⟨ha, hbefore⟩, hb⟩

theorem StopsAt.imp {passes' stops' : α → Prop} {l : List α} (h : StopsAt passes stops l)
    (hpasses : ∀ a ∈ l, passes a → passes' a) (hstops : ∀ a ∈ l, stops a → stops' a) :
    StopsAt passes' stops' l := by
  obtain ⟨before, a, after, rfl, hbefore, ha⟩ := h
  refine ⟨before, a, after, rfl, fun b hb => ?_, hstops a (by simp) ha⟩
  exact hpasses b (List.mem_append_left _ hb) (hbefore b hb)

/-- Where one step fails and no step before it is stopped by something else, the first step that
fails is what stops. -/
theorem StopsAt.first {β ε : Type} {step : α → Except ε β} {accepts : β → Prop} {l : List α}
    (h : StopsAt (fun a => ∀ b, step a = .ok b → accepts b) (fun a => ∃ e, step a = .error e) l) :
    ∃ e, StopsAt (fun a => ∃ b, step a = .ok b ∧ accepts b) (fun a => step a = .error e) l := by
  induction l with
  | nil => exact absurd h not_stopsAt_nil
  | cons a l ih =>
    cases hstep : step a with
    | error e => exact ⟨e, stopsAt_cons.mpr (.inl hstep)⟩
    | ok b =>
      rcases stopsAt_cons.mp h with ⟨e, he⟩ | ⟨ha, hrest⟩
      · rw [hstep] at he
        exact nomatch he
      · obtain ⟨e, he⟩ := ih hrest
        exact ⟨e, stopsAt_cons.mpr (.inr ⟨⟨b, hstep, ha b hstep⟩, he⟩)⟩

end stopsAt

end ViewContract
