/-
ViewContract.Proofs.Compile — what a compilation comes to.

A compilation is a weave: the pieces of the template between its annotations, with a code
in place of each annotation. With checks disabled there are no codes and nothing can fail
(`compile_disabled`). With checks enabled the codes are the guards, and the only failures
are those of an annotation that has none (`compile_enabled`).

That no splice is refused for overlapping spans (`extract_partition`) needs both sides: the
spans are consecutive, and an annotation without guards never reports an overlap.
-/
import ViewContract.Compile
import ViewContract.Proofs.Annotation.Partition

namespace ViewContract

open Text Annotation

/-! ## 1. Edits of the annotations -/

/-- Guards as replacements are edits of the annotations. -/
theorem exists_edits_of_guardReplacements {δ : Delimiters} : ∀ {l : List Annotation}
    {replacements : List Replacement}, guardReplacements δ l = .ok replacements →
    ∃ edits : List Edit, edits.map Prod.fst = l ∧ replacements = edits.map Edit.replacement
  | [], _, h => ⟨[], rfl, (Except.ok.inj h).symm⟩
  | a :: rest, replacements, h => by
    rw [guardReplacements] at h
    cases hcode : a.code δ with
    | error e => rw [hcode] at h; exact nomatch h
    | ok code =>
      cases hrest : guardReplacements δ rest with
      | error e => rw [hcode, hrest] at h; exact nomatch h
      | ok others =>
        rw [hcode, hrest] at h
        obtain ⟨edits, hmap, rfl⟩ := exists_edits_of_guardReplacements hrest
        obtain rfl := Except.ok.inj h
        exact ⟨(a, some code) :: edits, by rw [List.map_cons, hmap], rfl⟩

/-- The code of an edit is that of its annotation. -/
theorem code_of_mem_edits {δ : Delimiters} {edits : List Edit}
    (h : guardReplacements δ (edits.map Prod.fst) = .ok (edits.map Edit.replacement)) :
    ∀ e ∈ edits, ∃ code, e.2 = some code ∧ e.1.code δ = .ok code := by
  induction edits with
  | nil => exact fun _ h => absurd h List.not_mem_nil
  | cons e edits ih =>
    rw [List.map_cons, guardReplacements] at h
    cases hcode : e.1.code δ with
    | error fault => rw [hcode] at h; exact nomatch h
    | ok code =>
      cases hrest : guardReplacements δ (edits.map Prod.fst) with
      | error fault => rw [hcode, hrest] at h; exact nomatch h
      | ok others =>
        rw [hcode, hrest] at h
        obtain ⟨hfirst, hothers⟩ := List.cons.inj (Except.ok.inj h)
        intro e' he'
        rcases List.mem_cons.mp he' with rfl | he'
        · exact ⟨code, (Replacement.mk.inj hfirst).2.2.symm, hcode⟩
        · exact ih (hothers ▸ hrest) e' he'

/-- A template is the weave of its annotations' own texts. -/
theorem weave_texts {source : Text} : ∀ {l : List Annotation} {cursor : Nat},
    Consecutive source.length cursor l → (∀ a ∈ l, a.WellPlaced source) →
    weave source cursor (l.map fun a => (a, some a.text)) = source.drop cursor
  | [], _, _, _ => rfl
  | a :: rest, cursor, ⟨hstart, hstop, hrest⟩, hplaced => by
    have ha := hplaced a List.mem_cons_self
    rw [List.map_cons, weave, weave_texts hrest fun b hb => hplaced b (List.mem_cons_of_mem a hb)]
    have hcut : source.drop a.stop
        = ((source.drop cursor).drop (a.start - cursor)).drop (a.stop - a.start) := by
      rw [List.drop_drop, List.drop_drop]
      congr 1
      omega
    have htext : a.text
        = ((source.drop cursor).drop (a.start - cursor)).take (a.stop - a.start) := by
      rw [ha.text_eq, List.drop_drop]
      congr 2
      omega
    rw [Option.getD_some, htext, hcut, List.append_assoc, List.take_append_drop,
      List.take_append_drop]

/-- Removals are edits of the annotations without a code. -/
theorem removals_eq_edits (l : List Annotation) :
    removals l = (l.map fun a => ((a, none) : Edit)).map Edit.replacement := by
  rw [removals, List.map_map]
  rfl

/-! ## 2. Both ways to compile -/

/-- The template without its annotations. -/
def stripped (source : Text) : Text :=
  weave source 0 ((extract source).value.map fun a => (a, none))

/-- With checks disabled a compilation goes through and removes the annotations. -/
theorem compile_disabled {settings : Settings} (h : settings.enabled = false) (δ : Delimiters)
    (source : Text) : (compile settings δ source).value = .ok (stripped source) := by
  have hcons := extract_consecutive source
  cases hl : (extract source).value with
  | nil => simp [compile, hl, stripped, weave]
  | cons a rest =>
    rw [hl] at hcons
    have hmap : ((a :: rest).map fun a => ((a, none) : Edit)).map Prod.fst = a :: rest :=
      map_fst_edits _ _
    have hsplice : splice source (removals (a :: rest)) = .ok (stripped source) := by
      rw [removals_eq_edits, splice_edits (by rw [hmap]; exact hcons), stripped, hl]
    simp [compile, hl, h, hsplice, Except.mapError]

/-- With checks enabled a compilation goes through as soon as every annotation has its
code, and fails only for one that has none. -/
theorem compile_enabled {settings : Settings} (h : settings.enabled = true) (δ : Delimiters)
    (source : Text) :
    (∃ edits : List Edit, edits.map Prod.fst = (extract source).value ∧
        guardReplacements δ (extract source).value = .ok (edits.map Edit.replacement) ∧
        (compile settings δ source).value = .ok (weave source 0 edits)) ∨
      ∃ e, guardReplacements δ (extract source).value = .error e ∧
        (compile settings δ source).value = .error e := by
  have hcons := extract_consecutive source
  cases hl : (extract source).value with
  | nil => exact .inl ⟨[], rfl, rfl, by simp [compile, hl, weave]⟩
  | cons a rest =>
    cases hg : guardReplacements δ (a :: rest) with
    | error e => exact .inr ⟨e, rfl, by simp [compile, hl, h, hg, bind, Except.bind]⟩
    | ok replacements =>
      obtain ⟨edits, hmap, rfl⟩ := exists_edits_of_guardReplacements hg
      have hsplice : splice source (edits.map Edit.replacement) = .ok (weave source 0 edits) :=
        splice_edits (by rw [hmap, ← hl]; exact hcons)
      exact .inl ⟨edits, hmap, rfl, by
        simp [compile, hl, h, hg, hsplice, bind, Except.bind, Except.mapError]⟩

/-! ## 3. No overlap -/

/-- The code of an annotation is refused for the annotation or for a number, never for its
span. -/
theorem code_ne_overlap (δ : Delimiters) (a : Annotation) (fault : Overlap) :
    a.code δ ≠ .error (.overlap fault) := by
  intro h
  rw [code] at h
  cases hd : a.declarations.value with
  | error e =>
    rw [hd] at h
    obtain rfl := Except.error.inj h
    rw [declarations] at hd
    cases hr : (read a.form a.body).value with
    | ok ds => simp [hr, Except.mapError] at hd
    | error b => cases b <;> simp [hr, Except.mapError, blame] at hd
  | ok ds =>
    rw [hd] at h
    cases hg : guardText δ ds with
    | ok code => simp [hg, bind, Except.bind, Except.mapError] at h
    | error e => simp [hg, bind, Except.bind, Except.mapError] at h

theorem guardReplacements_ne_overlap (δ : Delimiters) (fault : Overlap) :
    ∀ l : List Annotation, guardReplacements δ l ≠ .error (.overlap fault)
  | [], h => nomatch h
  | a :: rest, h => by
    rw [guardReplacements] at h
    cases hcode : a.code δ with
    | error e =>
      rw [hcode] at h
      obtain rfl := Except.error.inj h
      exact code_ne_overlap δ a fault hcode
    | ok code =>
      cases hrest : guardReplacements δ rest with
      | error e =>
        rw [hcode, hrest] at h
        obtain rfl := Except.error.inj h
        exact guardReplacements_ne_overlap δ fault rest hrest
      | ok others => rw [hcode, hrest] at h; exact nomatch h

/-- No compilation meets overlapping replacements. -/
theorem compile_ne_overlap (settings : Settings) (δ : Delimiters) (source : Text)
    (fault : Overlap) : (compile settings δ source).value ≠ .error (.overlap fault) := by
  cases he : settings.enabled with
  | false =>
    rw [compile_disabled he]
    exact nofun
  | true =>
    obtain ⟨edits, _, _, hok⟩ | ⟨e, hg, herr⟩ := compile_enabled he δ source
    · rw [hok]
      exact nofun
    · rw [herr]
      intro h
      obtain rfl := Except.error.inj h
      exact guardReplacements_ne_overlap δ fault _ hg

/-- **The annotations partition the template**: they ascend strictly, each ends before
the next begins, each is the piece of the template that its span says, in the shape of its
form; and no compilation fails for overlapping spans. -/
theorem extract_partition (source : Text) :
    (extract source).value.Pairwise
        (fun a b => a.start < b.start ∧ a.stop ≤ b.start) ∧
      (∀ a ∈ (extract source).value, a.WellPlaced source) ∧
      ∀ settings δ fault, (compile settings δ source).value ≠ .error (.overlap fault) :=
  ⟨extract_ordered source, fun _ ha => wellPlaced_of_mem_extract ha,
    fun settings δ fault => compile_ne_overlap settings δ source fault⟩

end ViewContract
