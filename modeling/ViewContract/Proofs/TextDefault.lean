/-
ViewContract.Proofs.TextDefault — what a text gives as a default.

A doc comment gives a default as a text, and the type of the variable says what is made of it: null
of the word for null, the text itself of other texts for the kinds that keep texts, and a number of
a text that reads as one for the kinds of numbers. Under a class or without a type only null is a
default.

  §1 what a text stands for under a kind.
  §2 this is what it gives (`ofText_eq_ok_iff`), and it gives nothing only where a number is asked
     for that is not there (`ofText_fails_iff`).
-/
import ViewContract.Default
import ViewContract.Proofs.Text.Lowercase

namespace ViewContract

open Text

/-! ## 1. Texts and kinds -/

/-- What a kind of numbers makes of a number: an `int` takes integers only, a `float` finite doubles
and also the double nearest to an integer. -/
inductive Kind.Takes : Kind → Number.Literal → Literal → Prop where
  | int (n : Int) : Takes .int (.int n) (.int n)
  | float {x : Number.Binary64} (hx : x.isFinite = true) : Takes .float (.float x) (.float x)
  | nearest {n : Int} {x : Number.Binary64} (hx : Number.Binary64.ofInt? n = some x) :
      Takes .float (.int n) (.float x)

/-- What a text stands for as the default of a kind: null, the text itself for an `array` or a
`string`, and otherwise what the kind makes of the number. -/
inductive Literal.Stands (t : Text) : Kind → Literal → Prop where
  | null {kind : Kind} (h : SpellsNull t) : Stands t kind .null
  | text {kind : Kind} (h : ¬ SpellsNull t) (hkind : kind = .array ∨ kind = .string) :
      Stands t kind (.string t)
  | number {kind : Kind} {number : Number.Literal} {l : Literal} (h : ¬ SpellsNull t)
      (hread : Number.Literal.read t = .ok number) (htakes : kind.Takes number l) : Stands t kind l

/-! ## 2. What is given -/

section texts

variable {t : Text} {kind : Kind}

theorem ofText_of_stands {l : Literal} (h : Literal.Stands t kind l) :
    Literal.ofText t (some (.primitive kind)) = .ok (some l) := by
  rw [Literal.ofText.eq_def]
  cases h with
  | null h => rw [if_pos (lower_eq_null_iff.mpr h)]
  | text h hkind =>
    rw [if_neg (mt lower_eq_null_iff.mp h)]
    rcases hkind with rfl | rfl <;> rfl
  | number h hread htakes =>
    rw [if_neg (mt lower_eq_null_iff.mp h)]
    cases htakes with
    | int n => simp only [hread]
    | float hx =>
      simp only [hread, Literal.ofFiniteDouble, if_pos hx]
      rfl
    | nearest hx => simp only [hread, hx]

theorem stands_of_ofText {r : Option Literal}
    (h : Literal.ofText t (some (.primitive kind)) = .ok r) :
    ∃ l, r = some l ∧ Literal.Stands t kind l := by
  rw [Literal.ofText.eq_def] at h
  split at h
  · rename_i hnull
    exact ⟨.null, (Except.ok.inj h).symm, .null (lower_eq_null_iff.mp hnull)⟩
  · rename_i hnull
    have hword : ¬ SpellsNull t := mt lower_eq_null_iff.mpr hnull
    cases kind with
    | array => exact ⟨.string t, (Except.ok.inj h).symm, .text hword (.inl rfl)⟩
    | string => exact ⟨.string t, (Except.ok.inj h).symm, .text hword (.inr rfl)⟩
    | int =>
      dsimp only at h
      split at h
      · rename_i n hread
        exact ⟨.int n, (Except.ok.inj h).symm, .number hword hread (.int n)⟩
      · cases h
    | float =>
      dsimp only at h
      split at h
      · rename_i x hread
        by_cases hx : x.isFinite = true
        · rw [Literal.ofFiniteDouble, if_pos hx] at h
          exact ⟨.float x, (Except.ok.inj h).symm, .number hword hread (.float hx)⟩
        · rw [Literal.ofFiniteDouble, if_neg hx] at h
          cases h
      · rename_i n hread
        split at h
        · rename_i x hx
          exact ⟨.float x, (Except.ok.inj h).symm, .number hword hread (.nearest hx)⟩
        · cases h
      · cases h

/-- **What a text gives**: exactly what it stands for. -/
theorem ofText_eq_ok_iff {r : Option Literal} :
    Literal.ofText t (some (.primitive kind)) = .ok r ↔
      ∃ l, r = some l ∧ Literal.Stands t kind l := by
  constructor
  · exact stands_of_ofText
  · rintro ⟨l, rfl, h⟩
    exact ofText_of_stands h

/-- A text gives nothing exactly if it is asked for a number and the kind makes nothing of it. -/
theorem ofText_fails_iff :
    (∃ e, Literal.ofText t (some (.primitive kind)) = .error e) ↔
      (kind = .int ∨ kind = .float) ∧ ¬ SpellsNull t ∧
        ∀ number l, Number.Literal.read t = .ok number → ¬ kind.Takes number l := by
  constructor
  · rintro ⟨e, he⟩
    have hnothing : ∀ l, ¬ Literal.Stands t kind l := by
      intro l hl
      rw [ofText_eq_ok_iff.mpr ⟨l, rfl, hl⟩] at he
      cases he
    have hword : ¬ SpellsNull t := fun h => hnothing _ (.null h)
    refine ⟨?_, hword, fun number l hread htakes => hnothing l (.number hword hread htakes)⟩
    cases kind with
    | array => exact absurd (.text hword (.inl rfl)) (hnothing _)
    | string => exact absurd (.text hword (.inr rfl)) (hnothing _)
    | int => exact .inl rfl
    | float => exact .inr rfl
  · rintro ⟨hkind, hword, hnumber⟩
    cases hresult : Literal.ofText t (some (.primitive kind)) with
    | error e => exact ⟨e, rfl⟩
    | ok r =>
      obtain ⟨l, rfl, hl⟩ := ofText_eq_ok_iff.mp hresult
      cases hl with
      | null h => exact absurd h hword
      | text _ htext => rcases hkind with rfl | rfl <;> rcases htext with h | h <;> cases h
      | number _ hread htakes => exact absurd htakes (hnumber _ _ hread)

end texts

/-- Only a kind makes a text a default other than null. -/
theorem exists_stands_of_ofText {t : Text} {type : Option TypeRef} {l : Literal}
    (h : Literal.ofText t type = .ok (some l)) :
    l = .null ∨ ∃ kind, type = some (.primitive kind) ∧ Literal.Stands t kind l := by
  by_cases hkind : ∃ kind, type = some (.primitive kind)
  · obtain ⟨kind, rfl⟩ := hkind
    obtain ⟨_, hl, hstands⟩ := ofText_eq_ok_iff.mp h
    obtain rfl := Option.some.inj hl
    exact .inr ⟨kind, rfl, hstands⟩
  · refine .inl ?_
    rw [Literal.ofText.eq_def] at h
    split at h
    · exact (Option.some.inj (Except.ok.inj h)).symm
    · rcases type with _ | kind | path
      · cases h
      · exact absurd ⟨kind, rfl⟩ hkind
      · cases h

end ViewContract
