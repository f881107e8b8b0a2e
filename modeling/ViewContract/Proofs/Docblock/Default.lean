/-
ViewContract.Proofs.Docblock.Default — the defaults of doc comments and the guards of their types.

A doc comment gives a default as a text in a marker, which is turned into what the type of the
variable asks for. The guard of the type sees the default again at render time, if no value is
given. The two agree but for arrays: there the text itself is the default, and it is no array.

  §1 what a text stands for fits the kind, or it is the text for an `array`.
  §2 the marker of a tag and the declaration made of it (`default_of_declaration`).
  §3 renders without a value (`block_default_fits`).
-/
import ViewContract.Proofs.Guard.Default

namespace ViewContract

open Template Text

/-! ## 1. Literals and kinds -/

theorem Kind.Takes.isOfKind {kind : Kind} {number : Number.Literal} {l : Literal}
    (h : kind.Takes number l) : l.value.isOfKind kind = true := by
  cases h <;> rfl

/-- A literal that a text stands for is null exactly if the text is, and otherwise it fits its kind,
or the kind is `array` and it is the text. -/
theorem Literal.Stands.fits {t : Text} {kind : Kind} {l : Literal} (h : Literal.Stands t kind l) :
    (l = .null ↔ SpellsNull t) ∧
      (l = .null ∨ kind ≠ .array ∧ l.value.isOfKind kind = true ∨
        kind = .array ∧ l = .string t ∧ l.value.isOfKind .array = false) := by
  cases h with
  | null h => exact ⟨iff_of_true rfl h, .inl rfl⟩
  | text h hkind =>
    refine ⟨iff_of_false nofun h, .inr ?_⟩
    rcases hkind with rfl | rfl
    · exact .inr ⟨rfl, rfl, rfl⟩
    · exact .inl ⟨nofun, rfl⟩
  | number h hread htakes =>
    have hvalue := htakes.isOfKind
    refine ⟨iff_of_false ?_ h, .inr (.inl ⟨?_, hvalue⟩)⟩
    · rintro rfl
      cases htakes
    · rintro rfl
      cases htakes

/-! ## 2. Tags -/

namespace Docblock

/-- The text of the default marker of a tag, without the blanks around it. -/
def Tag.default? (tag : Tag) : Option Text := do
  let (_, rest) ← (tag.typeMembers (trim tag.rest)).toOption
  let (_, description) ← leadingVariable? rest
  let marker ← marker? description
  pure (trim marker)

/-- The declaration of a tag with a marker is optional, and its default is what the marker gives for
its type; without a marker there is no default. -/
theorem Tag.default_of_declaration {tag : Tag} {d : Declaration} (h : tag.declaration = .ok d) :
    match tag.default? with
    | some t => d.required = false ∧ Literal.ofText t d.type = .ok d.default
    | none => d.default = none := by
  obtain ⟨_, _, description, default, hms, hvariable, hdefault, _, hd⟩ := exists_of_declaration h
  have hfound : tag.default? = (marker? description).map trim := by
    rw [default?, hms]
    simp only [Except.toOption, Option.bind_eq_bind, Option.bind_some, hvariable]
    cases marker? description <;> rfl
  rw [hfound, hd]
  cases hmarker : marker? description with
  | none =>
    rw [hmarker] at hdefault
    exact (Except.ok.inj hdefault).symm
  | some marker =>
    rw [hmarker] at hdefault
    exact ⟨rfl, eq_ok_of_mapError hdefault⟩

end Docblock

/-! ## 3. Renders -/

/-- **Defaults of doc comments fit their guards, those of arrays apart**: what a text gives for a
kind is null, exactly for the word for null, or a value of the kind, or for an `array` the text
itself, which is none; and a text that is asked for a number and is none of the kind is refused. So
where a variable that a doc comment declares with a default has no value, its own guards report it
exactly if its kind is `array` and the marker is not the word for null, and bind the default
otherwise. They report where the context leaves them the functions to report with (`Fails`). -/
theorem block_default_fits (t : Text) (kind : Kind) :
    (∀ r, Literal.ofText t (some (.primitive kind)) = .ok r → ∃ l, r = some l ∧
      (l = .null ↔ SpellsNull t) ∧
      (l = .null ∨ kind ≠ .array ∧ l.value.isOfKind kind = true ∨
        kind = .array ∧ l = .string t ∧ l.value.isOfKind .array = false)) ∧
    ((∃ e, Literal.ofText t (some (.primitive kind)) = .error e) ↔
      (kind = .int ∨ kind = .float) ∧ ¬ SpellsNull t ∧
        ∀ number l, Number.Literal.read t = .ok number → ¬ kind.Takes number l) ∧
    ∀ (tag : Docblock.Tag) (d : Declaration), tag.declaration = .ok d → tag.default? = some t →
      d.type = some (.primitive kind) → ∃ l, d.HasDefault kind l ∧ Literal.Stands t kind l ∧
        ∀ (env : Environment) (registry : Registry) (context : Context) (text : Text), env.Regular →
          context.given? d.name = none → guardText env.delimiters [d] = .ok text →
          if kind = .array ∧ ¬ SpellsNull t then
            Fails context (runText env registry context text)
              (.wrongKind d.name Kind.array.name.toList Kind.string.name.toList)
          else ∃ context', resultOf (runText env registry context text) = .ok ([], context') ∧
            context'.value? d.name = some l.value := by
  refine ⟨fun r hr => ?_, ofText_fails_iff, fun tag d hd ht hkind => ?_⟩
  · obtain ⟨l, hl, hstands⟩ := ofText_eq_ok_iff.mp hr
    exact ⟨l, hl, hstands.fits⟩
  · have hdeclared := Docblock.Tag.default_of_declaration hd
    rw [ht] at hdeclared
    obtain ⟨hoptional, htext⟩ := hdeclared
    rw [hkind] at htext
    obtain ⟨l, hl, hstands⟩ := ofText_eq_ok_iff.mp htext
    have hdefault : d.HasDefault kind l := ⟨hoptional, hkind, hl⟩
    have hsound := Docblock.Tag.sound_of_declaration hd
    obtain ⟨hnull, hfits⟩ := hstands.fits
    refine ⟨l, hdefault, hstands, fun env registry context text henv habsent hguard => ?_⟩
    split
    · rename_i harray
      obtain ⟨rfl, hword⟩ := harray
      have hne : l ≠ .null := mt hnull.mp hword
      rcases hfits with h | ⟨h, _⟩ | ⟨_, rfl, hvalue⟩
      · exact absurd h hne
      · exact absurd rfl h
      · exact hdefault.run_fails henv hsound hguard registry habsent hne hvalue
    · rename_i hnot
      refine hdefault.run_binds henv hsound hguard registry habsent ?_
      rcases hfits with h | ⟨_, h⟩ | ⟨rfl, rfl, _⟩
      · exact .inl h
      · exact .inr h
      · exact absurd ⟨rfl, fun h => nomatch hnull.mpr h⟩ hnot

/-- A doc comment that gives an `array` a text as its default. -/
theorem block_default_fits_of_array :
    ∃ d text, Docblock.Tag.declaration ⟨"param".toList, "array $x (default: a)".toList, 1⟩ = .ok d ∧
      guardText {} [d] = .ok text ∧
      resultOf (runText {} {} (Context.ofValues []) text)
        = .error (.check (.wrongKind ['x'] "array".toList "string".toList)) := by
  have hd : Docblock.Tag.declaration ⟨"param".toList, "array $x (default: a)".toList, 1⟩
      = .ok ⟨['x'], false, some (.primitive .array), some (.string ['a']), false⟩ := by
    decide +kernel
  have hmarker : Docblock.Tag.default? ⟨"param".toList, "array $x (default: a)".toList, 1⟩
      = some ['a'] := by
    decide +kernel
  obtain ⟨text, htext⟩ : ∃ text, guardText {}
      [⟨['x'], false, some (.primitive .array), some (.string ['a']), false⟩] = .ok text := ⟨_, rfl⟩
  obtain ⟨_, _, _, hrun⟩ := (block_default_fits ['a'] .array).2.2 _ _ hd hmarker rfl
  have hfails := hrun {} {} (Context.ofValues []) text regular_default rfl htext
  rw [if_pos ⟨rfl, by decide⟩] at hfails
  exact ⟨_, text, hd, htext, hfails (reports_ofValues fun _ _ => rfl)⟩

end ViewContract
