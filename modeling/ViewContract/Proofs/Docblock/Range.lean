/-
ViewContract.Proofs.Docblock.Range — doc comments with a number beyond the doubles.

A doc comment turns the default of a `float` into a double. A decimal that is too large becomes
infinite and is refused as a default; an integer that is too large has no double at all, and
that is no error of the grammar or the default. This is the only way for a doc comment to be out
of range (`declarations_eq_range_iff`).
-/
import ViewContract.Docblock.Declarations
import ViewContract.Proofs.Annotation.Declared
import ViewContract.Proofs.InRange
import ViewContract.Proofs.Number.Overflow

namespace ViewContract

open Text

/-- A text has no literal for a number out of range exactly if it is an integer beyond the doubles
and a `float` is asked for. -/
theorem Literal.ofText_eq_range_iff {t : Text} {type : Option TypeRef} {fault : RangeFault} :
    Literal.ofText t type = .error (.range fault) ↔
      fault = .overflow ∧ type = some (.primitive .float) ∧ lower t ≠ "null".toList ∧
        ∃ n, Number.Literal.read t = .ok (.int n) ∧
          (2 ^ 54 - 1) * Number.halfUnit ≤ n.natAbs := by
  rw [Literal.ofText.eq_def]
  split
  · rename_i hnull
    exact iff_of_false (by simp) fun h => h.2.2.1 hnull
  · rename_i hnull
    split
    · simp
    · simp
    · refine iff_of_false ?_ (by simp)
      split <;> simp
    · split
      · rename_i x hread
        refine iff_of_false ?_ ?_
        · rw [Literal.ofFiniteDouble]
          split <;> simp
        · rintro ⟨_, _, _, n, hn, _⟩
          rw [hread] at hn
          cases hn
      · rename_i n hread
        split
        · rename_i x hx
          refine iff_of_false (by simp) ?_
          rintro ⟨_, _, _, m, hm, hge⟩
          obtain rfl := Number.Literal.int.inj (Except.ok.inj (hread.symm.trans hm))
          rw [Number.ofInt?_eq_none_iff.mpr hge] at hx
          cases hx
        · rename_i hnone
          refine ⟨fun h => ?_, fun h => h.1 ▸ rfl⟩
          obtain rfl : .overflow = fault := DefaultError.range.inj (Except.error.inj h)
          exact ⟨rfl, rfl, hnull, n, hread, Number.ofInt?_eq_none_iff.mp hnone⟩
      · rename_i e hread
        refine iff_of_false (by simp) ?_
        rintro ⟨_, _, _, n, hn, _⟩
        rw [hread] at hn
        cases hn
    · simp
    · simp

namespace Docblock

/-- A tag that gives an integer beyond the doubles as the default of a `float`. -/
def Tag.Overflows (tag : Tag) : Prop :=
  ∃ ms rest name description value n,
    trim tag.rest ≠ [] ∧ tag.typeMembers (trim tag.rest) = .ok (ms, rest) ∧
      (Typing.ofMembers ms).type = some (.primitive .float) ∧
      leadingVariable? rest = some (name, description) ∧ marker? description = some value ∧
      lower (trim value) ≠ "null".toList ∧ Number.Literal.read (trim value) = .ok (.int n) ∧
      (2 ^ 54 - 1) * Number.halfUnit ≤ n.natAbs

theorem defaultOfMarker_eq_range_iff {marker : Option Text} {type : Option TypeRef}
    {fault : RangeFault} : defaultOfMarker marker type = .error (.range fault) ↔
      ∃ value, marker = some value ∧ Literal.ofText (trim value) type = .error (.range fault) := by
  cases marker with
  | none => exact iff_of_false nofun fun ⟨_, h, _⟩ => nomatch h
  | some value =>
    have hblame : (Literal.ofText (trim value) type).mapError DefaultError.inBody
        = .error (.range fault) ↔ Literal.ofText (trim value) type = .error (.range fault) := by
      cases Literal.ofText (trim value) type with
      | ok l => exact iff_of_false nofun nofun
      | error e => cases e <;> simp [Except.mapError, DefaultError.inBody]
    rw [defaultOfMarker, hblame]
    exact ⟨fun h => ⟨value, rfl, h⟩, fun ⟨_, hvalue, h⟩ => Option.some.inj hvalue ▸ h⟩

/-- The only way for a tag to be out of range. -/
theorem Tag.declaration_eq_range_iff {tag : Tag} {fault : RangeFault} :
    tag.declaration = .error (.range fault) ↔ fault = .overflow ∧ tag.Overflows := by
  rw [declaration]
  split
  · rename_i hempty
    refine iff_of_false (by simp [failGrammar]) ?_
    rintro ⟨_, ms, rest, name, description, value, n, hne, _⟩
    exact hne (List.isEmpty_iff.mp hempty)
  · rename_i hempty
    rw [(inRange_grammar _).bind_eq_range_iff]
    constructor
    · rintro ⟨⟨ms, rest⟩, hmembers, h⟩
      dsimp only at h
      split at h
      · cases h
      · rename_i name description hvariable
        rw [bind_eq_range_iff fun _ => inRange_inBody _] at h
        obtain ⟨value, hmarker, h⟩ := defaultOfMarker_eq_range_iff.mp h
        obtain ⟨rfl, htype, hnull, n, hread, hge⟩ := Literal.ofText_eq_range_iff.mp h
        exact ⟨rfl, ms, rest, name, description, value, n, fun h => hempty (List.isEmpty_iff.mpr h),
          eq_ok_of_mapError hmembers, htype, hvariable, hmarker, hnull, hread, hge⟩
    · rintro ⟨rfl, ms, rest, name, description, value, n, _, hmembers, htype, hvariable, hmarker,
        hnull, hread, hge⟩
      refine ⟨(ms, rest), by rw [hmembers]; rfl, ?_⟩
      dsimp only
      rw [hvariable]
      refine (bind_eq_range_iff fun _ => inRange_inBody _).mpr ?_
      exact defaultOfMarker_eq_range_iff.mpr
        ⟨value, hmarker, Literal.ofText_eq_range_iff.mpr ⟨rfl, htype, hnull, n, hread, hge⟩⟩

/-- Tags are out of range if one overflows and those before it are read. -/
theorem declarationsOf_eq_range_iff {tags : List Tag} {fault : RangeFault} :
    declarationsOf tags = .error (.range fault) ↔ fault = .overflow ∧
      StopsAt (fun tag => tag.declares = true → ∃ d, tag.declaration = .ok d)
        (fun tag => tag.declares = true ∧ tag.Overflows) tags := by
  induction tags with
  | nil => exact iff_of_false (by simp [declarationsOf]) fun h => not_stopsAt_nil h.2
  | cons tag tags ih =>
    rw [declarationsOf, stopsAt_cons]
    cases hdeclares : tag.declares with
    | false => simpa using ih
    | true =>
      rw [if_pos rfl]
      have hrange := @Tag.declaration_eq_range_iff tag fault
      cases htag : tag.declaration with
      | error e =>
        rw [htag] at hrange
        refine Iff.trans ?_ (hrange.trans (and_congr_right fun _ => ?_))
        · exact ⟨fun h => congrArg _ (Except.error.inj h), fun h => congrArg _ (Except.error.inj h)⟩
        · simp
      | ok d =>
        have hnot : ¬ (fault = .overflow ∧ tag.Overflows) := by
          rw [← hrange, htag]
          simp
        have hrest : (do
            let d ← .ok d
            let ds ← declarationsOf tags
            pure (d :: ds)) = Except.error (BodyError.range fault) ↔
              declarationsOf tags = .error (.range fault) :=
          bind_eq_range_iff fun ds => inRange_ok (d :: ds)
        rw [hrest, ih]
        refine and_congr_right fun hfault => ?_
        have hfits : ¬ tag.Overflows := fun h => hnot ⟨hfault, h⟩
        simp [hfits]

/-- **The only way for a doc comment to be out of range**: one of its tags gives an integer beyond
the doubles as the default of a `float`, and those before it are read. -/
theorem declarations_eq_range_iff {body : Text} {fault : RangeFault} :
    (declarations body).value = .error (.range fault) ↔ fault = .overflow ∧
      StopsAt (fun tag => tag.declares = true → ∃ d, tag.declaration = .ok d)
        (fun tag => tag.declares = true ∧ tag.Overflows) (tags body) := by
  rw [← declarationsOf_eq_range_iff]
  exact bind_eq_range_iff inRange_distinct

end Docblock

end ViewContract
