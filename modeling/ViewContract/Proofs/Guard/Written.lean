/-
ViewContract.Proofs.Guard.Written — declarations whose guards can be written.

A sound declaration has a name that can be written, but its default may still be a number that
is too long. If the guards of some declarations have a text at all, each of them is `Writable`
(`writable_of_guardText`), and they have one exactly if no number is too long
(`exists_guardText_iff`).
-/
import ViewContract.Proofs.Annotation.Declared
import ViewContract.Proofs.Guard.Tags

namespace ViewContract

open Template Text

/-- Guards are written exactly if each of them can say what it does. -/
theorem exists_statements_iff (δ : Delimiters) (gs : List Guard) (count : Nat) :
    (∃ t, Guard.statementsAfter δ count gs = .ok t) ↔ ∀ g ∈ gs, ∃ a, g.action δ = .ok a := by
  induction gs generalizing count with
  | nil => exact ⟨fun _ g hg => absurd hg List.not_mem_nil, fun _ => ⟨[], rfl⟩⟩
  | cons g gs ih =>
    constructor
    · rintro ⟨t, h⟩
      obtain ⟨statement, hstatement, h⟩ := exists_of_bind_eq_ok h
      obtain ⟨action, haction, _⟩ := exists_of_bind_eq_ok hstatement
      obtain ⟨others, hothers, _⟩ := exists_of_bind_eq_ok h
      rintro g' hg'
      rcases List.mem_cons.mp hg' with rfl | hg'
      · exact ⟨action, haction⟩
      · exact (ih (count + 1)).mp ⟨others, hothers⟩ g' hg'
    · intro h
      obtain ⟨action, haction⟩ := h g List.mem_cons_self
      obtain ⟨others, hothers⟩ := (ih (count + 1)).mpr
        fun g' hg' => h g' (List.mem_cons_of_mem g hg')
      rw [Guard.statementsAfter, Guard.statement, haction, hothers]
      exact ⟨_, rfl⟩

theorem Literal.writable_of_source {l : Literal} (hl : l.Sound) {t : Text} (h : l.source = .ok t) :
    l.Writable := by
  cases l with
  | null => exact trivial
  | string s => exact trivial
  | float x =>
    cases x with
    | finite negative m e => exact hl
    | infinite negative => exact hl
    | nan => exact hl
  | int n =>
    rw [source, Number.decimalText?] at h
    split at h
    · cases h
    · exact Nat.not_lt.mp ‹_›

/-- A literal that can be written: an integer in it is within the limit of digits. -/
def Literal.Short (l : Literal) : Prop :=
  ∀ n, l = .int n → Number.decimalLength n.natAbs ≤ Number.digitLimit

instance (l : Literal) : Decidable l.Short :=
  match l with
  | .int n => decidable_of_iff (Number.decimalLength n.natAbs ≤ Number.digitLimit)
      ⟨fun h _ hn => Literal.int.inj hn ▸ h, fun h => h n rfl⟩
  | .null | .float _ | .string _ => .isTrue nofun

theorem Literal.exists_source_iff {l : Literal} : (∃ t, l.source = .ok t) ↔ l.Short := by
  cases l with
  | null => exact iff_of_true ⟨_, rfl⟩ (by simp [Short])
  | float x => exact iff_of_true ⟨_, rfl⟩ (by simp [Short])
  | string t => exact iff_of_true ⟨_, rfl⟩ (by simp [Short])
  | int n =>
    rw [source, Number.decimalText?]
    by_cases hn : Number.digitLimit < Number.decimalLength n.natAbs
    · rw [if_pos hn]
      refine iff_of_false ?_ fun h => absurd (h n rfl) (Nat.not_le.mpr hn)
      rintro ⟨t, ht⟩
      cases ht
    · rw [if_neg hn]
      refine iff_of_true ⟨_, rfl⟩ fun m hm => ?_
      obtain rfl := Literal.int.inj hm
      exact Nat.not_lt.mp hn

namespace Declaration

variable {d : Declaration} {δ : Delimiters}

theorem exists_action_of_mem_typeGuards {g : Guard} (hg : g ∈ d.typeGuards) :
    ∃ a, g.action δ = .ok a := by
  rw [typeGuards.eq_def] at hg
  split at hg
  · exact absurd hg List.not_mem_nil
  · rw [List.mem_singleton.mp hg]
    exact ⟨_, rfl⟩
  · rw [List.mem_singleton.mp hg]
    exact ⟨_, rfl⟩

/-- The guards of a declaration can be written exactly if the value that stands in for a missing
one can. -/
theorem exists_actions_iff : (∀ g ∈ d.guards, ∃ a, g.action δ = .ok a) ↔
    (d.required = false → (d.default.getD .null).Short) := by
  have hpresence : (∃ a, d.presenceGuard.action δ = .ok a) ↔
      (d.required = false → (d.default.getD .null).Short) := by
    rw [presenceGuard]
    cases d.required with
    | true => exact ⟨fun _ => nofun, fun _ => ⟨_, rfl⟩⟩
    | false =>
      rw [if_neg Bool.false_ne_true, ← Literal.exists_source_iff]
      constructor
      · rintro ⟨a, ha⟩ _
        obtain ⟨t, ht, _⟩ := exists_of_bind_eq_ok ha
        exact ⟨t, ht⟩
      · intro h
        obtain ⟨t, ht⟩ := h rfl
        rw [Guard.action, ht]
        exact ⟨_, rfl⟩
  rw [guards, List.forall_mem_cons, hpresence]
  exact and_iff_left fun g hg => exists_action_of_mem_typeGuards hg

theorem sound_default (hd : d.Sound) : (d.default.getD .null).Sound := by
  cases hdefault : d.default with
  | none => exact trivial
  | some l => exact hd.default l hdefault

theorem writable_default (hd : d.Sound)
    (hwritten : ∀ g ∈ d.guards, ∃ a, g.action δ = .ok a) (hrequired : d.required = false) :
    (d.default.getD .null).Writable := by
  obtain ⟨a, haction⟩ := hwritten d.presenceGuard List.mem_cons_self
  rw [presenceGuard, hrequired, if_neg Bool.false_ne_true] at haction
  obtain ⟨t, ht, _⟩ := exists_of_bind_eq_ok haction
  exact Literal.writable_of_source (sound_default hd) ht

theorem name_of_mem_guards {g : Guard} (hg : g ∈ d.guards) : g.name = d.name := by
  rcases List.mem_cons.mp hg with rfl | hg
  · rw [presenceGuard]
    split <;> rfl
  · rw [typeGuards.eq_def] at hg
    split at hg
    · exact absurd hg List.not_mem_nil
    · rw [List.mem_singleton.mp hg]
      rfl
    · rw [List.mem_singleton.mp hg]
      rfl

/-- The guards of a sound declaration can be written and read. -/
theorem writable_of_mem_guards (hd : d.Sound)
    (hwritten : ∀ g ∈ d.guards, ∃ a, g.action δ = .ok a) {g : Guard} (hg : g ∈ d.guards) :
    g.Writable := by
  have hname := name_of_mem_guards hg
  refine ⟨hname ▸ hd.name, hname ▸ hd.notReserved, ?_⟩
  rintro name default rfl
  rcases List.mem_cons.mp hg with h | h
  · rw [presenceGuard] at h
    split at h
    · exact nomatch h
    · have hrequired : d.required = false := by simpa using ‹¬ d.required = true›
      have hdefault : default = d.default.getD .null := by
        injection h
      rw [hdefault]
      exact writable_default hd hwritten hrequired
  · rw [typeGuards.eq_def] at h
    split at h
    · exact absurd h List.not_mem_nil
    · exact nomatch List.mem_singleton.mp h
    · exact nomatch List.mem_singleton.mp h

end Declaration

/-- What is written as text is made of guards that can be written. -/
theorem writable_of_guardText {δ : Delimiters} {ds : List Declaration} (hsound : ∀ d ∈ ds, d.Sound)
    {text : Text} (htext : guardText δ ds = .ok text) :
    ∀ g ∈ ds.flatMap Declaration.guards, g.Writable := by
  have hactions := (exists_statements_iff δ _ 0).mp ⟨text, htext⟩
  intro g hg
  obtain ⟨d, hd, hgd⟩ := List.mem_flatMap.mp hg
  exact Declaration.writable_of_mem_guards (hsound d hd)
    (fun g' hg' => hactions g' (List.mem_flatMap.mpr ⟨d, hd, hg'⟩)) hgd

/-- Declarations have guards as text exactly if every value that stands in for a missing one can
be written. -/
theorem exists_guardText_iff (δ : Delimiters) (ds : List Declaration) :
    (∃ t, guardText δ ds = .ok t) ↔
      ∀ d ∈ ds, d.required = false → (d.default.getD .null).Short := by
  rw [guardText, exists_statements_iff]
  constructor
  · intro h d hd
    exact Declaration.exists_actions_iff.mp fun g hg => h g (List.mem_flatMap.mpr ⟨d, hd, hg⟩)
  · intro h g hg
    obtain ⟨d, hd, hgd⟩ := List.mem_flatMap.mp hg
    exact Declaration.exists_actions_iff.mpr (h d hd) g hgd

/-- The guards of an annotation are those of the declarations in its body. -/
theorem Annotation.code_of_read {a : Annotation} {ds : List Declaration}
    (h : (read a.form a.body).value = .ok ds) (δ : Delimiters) :
    a.code δ = (guardText δ ds).mapError .range := by
  rw [code, declarations, h]
  rfl

end ViewContract
