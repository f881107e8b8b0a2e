/-
ViewContract.Proofs.Template.Preprocess — where raw code is not allowed.

The search for raw code goes over the template as it was written, and what is compiled
afterwards is another text. So the policy is exact for the template (`preprocess_ok_iff`), while
the compiled text may hold raw code that was none before: two halves of a mark become a mark
when the annotation between them goes (`rawCode_at_seam`). This module says when that cannot
happen. The template and the compiled text are weaves of the same pieces. If the pieces and the
annotations are self-contained, the scan finds in the pieces what it found before, and the
guards add nothing.
-/
import ViewContract.Proofs.Compile
import ViewContract.Proofs.Guard.RawCode
import ViewContract.Template.Preprocess

namespace ViewContract.Template

open ViewContract.Text
open ViewContract.Annotation (extract extract_consecutive read sound_of_read
  wellPlaced_of_mem_extract)

/-! ## 1. The policy -/

/-- Where raw code is not allowed, a template is compiled exactly if none is found in it as it
was written, whether or not checks are enabled. -/
theorem preprocess_ok_iff {env : Environment} {settings : Settings}
    (hforbidden : settings.allowRawCode = false) (origin : Origin) (source out : Text) :
    (preprocess env settings origin source).value = .ok out ↔
      findRawCode env source = .ok none ∧
        (compile settings env.delimiters source).value = .ok out := by
  rw [preprocess, checkRawCode, hforbidden, if_neg Bool.false_ne_true]
  cases findRawCode env source with
  | error fault => simp
  | ok found =>
    cases found with
    | some line => simp
    | none =>
      simp only [true_and]
      cases (compile settings env.delimiters source).value <;> simp [Except.mapError]

/-! ## 2. Weaves of self-contained texts -/

section weaves

variable {env : Environment} {source : Text}

/-- Texts without raw code are woven into one without it. -/
theorem selfContained_weave {edits : List Edit} {cursor : Nat}
    (hpieces : ∀ p ∈ pieces source cursor (edits.map Prod.fst), SelfContained env false p)
    (hcodes : ∀ e ∈ edits, SelfContained env false (e.2.getD [])) :
    SelfContained env false (weave source cursor edits) := by
  induction edits generalizing cursor with
  | nil => exact hpieces _ List.mem_cons_self
  | cons e edits ih =>
    rw [List.map_cons, pieces] at hpieces
    have hpiece := hpieces _ List.mem_cons_self
    have hrest := ih (fun p hp => hpieces p (List.mem_cons_of_mem _ hp))
      fun e' he' => hcodes e' (List.mem_cons_of_mem e he')
    exact (hpiece.append (hcodes e List.mem_cons_self)).append hrest

/-- A weave of self-contained texts is self-contained, and without raw code only if all its
pieces are. -/
theorem exists_selfContained_weave {edits : List Edit} {cursor : Nat}
    (hpieces : ∀ p ∈ pieces source cursor (edits.map Prod.fst), ∃ runs, SelfContained env runs p)
    (hcodes : ∀ e ∈ edits, ∃ runs, SelfContained env runs (e.2.getD [])) :
    ∃ runs, SelfContained env runs (weave source cursor edits) ∧ (runs = false →
      ∀ p ∈ pieces source cursor (edits.map Prod.fst), SelfContained env false p) := by
  induction edits generalizing cursor with
  | nil =>
    obtain ⟨runs, hlast⟩ := hpieces _ List.mem_cons_self
    refine ⟨runs, hlast, fun hruns p hp => ?_⟩
    rw [List.mem_singleton.mp hp]
    exact hruns ▸ hlast
  | cons e edits ih =>
    rw [List.map_cons, pieces] at hpieces ⊢
    obtain ⟨first, hfirst⟩ := hpieces _ List.mem_cons_self
    obtain ⟨code, hcode⟩ := hcodes e List.mem_cons_self
    obtain ⟨runs, hrest, hnone⟩ := ih (fun p hp => hpieces p (List.mem_cons_of_mem _ hp))
      fun e' he' => hcodes e' (List.mem_cons_of_mem e he')
    refine ⟨(first || code) || runs, (hfirst.append hcode).append hrest, fun hruns p hp => ?_⟩
    rw [Bool.or_eq_false_iff, Bool.or_eq_false_iff] at hruns
    rcases List.mem_cons.mp hp with rfl | hp
    · exact hruns.1.1 ▸ hfirst
    · exact hnone hruns.2 p hp

end weaves

/-! ## 3. Compiled templates -/

/-- The pieces of a template between its annotations. -/
def templatePieces (source : Text) : List Text :=
  pieces source 0 (extract source).value

section compiled

variable {env : Environment} {source : Text}

/-- The code of an annotation is self-contained and without raw code. -/
theorem selfContained_code (henv : env.Regular) {a : Annotation} {code : Text}
    (h : a.code env.delimiters = .ok code) : SelfContained env false code := by
  obtain ⟨ds, hds, h⟩ := exists_of_bind_eq_ok h
  have hread : (read a.form a.body).value = .ok ds := eq_ok_of_mapError hds
  exact selfContained_guardText henv (sound_of_read hread).1 (eq_ok_of_mapError h)

/-- What a template is compiled to: a weave of its pieces and of codes without raw code. -/
theorem exists_weave_of_compile {settings : Settings} (henv : settings.enabled = true → env.Regular)
    {out : Text} (hout : (compile settings env.delimiters source).value = .ok out) :
    ∃ edits : List Edit, edits.map Prod.fst = (extract source).value ∧
      out = weave source 0 edits ∧ ∀ e ∈ edits, SelfContained env false (e.2.getD []) := by
  cases henabled : settings.enabled with
  | false =>
    rw [compile_disabled henabled] at hout
    refine ⟨_, map_fst_edits _ _, (Except.ok.inj hout).symm, fun e he => ?_⟩
    obtain ⟨a, _, rfl⟩ := List.mem_map.mp he
    exact selfContained_nil
  | true =>
    obtain ⟨edits, hmap, hcodes, hok⟩ | ⟨e, _, herror⟩ :=
      compile_enabled henabled env.delimiters source
    · rw [hok] at hout
      refine ⟨edits, hmap, (Except.ok.inj hout).symm, fun e he => ?_⟩
      obtain ⟨code, hcode, h⟩ := code_of_mem_edits (hmap ▸ hcodes) e he
      rw [hcode]
      exact selfContained_code (henv henabled) h
    · rw [herror] at hout
      exact nomatch hout

/-- If no raw code is found in a template of self-contained parts, none is in its pieces. -/
theorem findRawCode_pieces
    (hpieces : ∀ p ∈ templatePieces source, ∃ runs, SelfContained env runs p)
    (htexts : ∀ a ∈ (extract source).value, ∃ runs, SelfContained env runs a.text)
    (hsource : findRawCode env source = .ok none) :
    ∀ p ∈ templatePieces source, findRawCode env p = .ok none := by
  let edits : List Edit := (extract source).value.map fun a => (a, some a.text)
  have hmap : edits.map Prod.fst = (extract source).value := map_fst_edits _ _
  have hweave : weave source 0 edits = source :=
    weave_texts (extract_consecutive source) fun a ha => wellPlaced_of_mem_extract ha
  have hcodes : ∀ e ∈ edits, ∃ runs, SelfContained env runs (e.2.getD []) := by
    intro e he
    obtain ⟨a, ha, rfl⟩ := List.mem_map.mp he
    exact htexts a ha
  rw [templatePieces, ← hmap] at hpieces ⊢
  obtain ⟨runs, hall, hnone⟩ : ∃ runs, SelfContained env runs (weave source 0 edits) ∧ _ :=
    exists_selfContained_weave hpieces hcodes
  rw [hweave] at hall
  intro p hp
  exact (hnone (hall.findRawCode.mp hsource) p hp).findRawCode.mpr rfl

/-- In a weave of self-contained pieces and codes without raw code there is raw code only if it
is in a piece. -/
theorem findRawCode_weave {edits : List Edit} (hmap : edits.map Prod.fst = (extract source).value)
    (hpieces : ∀ p ∈ templatePieces source, ∃ runs, SelfContained env runs p)
    (hcodes : ∀ e ∈ edits, SelfContained env false (e.2.getD [])) :
    findRawCode env (weave source 0 edits) = .ok none ↔
      ∀ p ∈ templatePieces source, findRawCode env p = .ok none := by
  rw [templatePieces, ← hmap] at hpieces ⊢
  constructor
  · intro h p hp
    obtain ⟨runs, hall, hnone⟩ : ∃ runs, SelfContained env runs (weave source 0 edits) ∧ _ :=
      exists_selfContained_weave hpieces fun e he => ⟨false, hcodes e he⟩
    exact (hnone (hall.findRawCode.mp h) p hp).findRawCode.mpr rfl
  · intro h
    have hnone : ∀ p ∈ pieces source 0 (edits.map Prod.fst), SelfContained env false p := by
      intro p hp
      obtain ⟨runs, hcontained⟩ := hpieces p hp
      exact hcontained.findRawCode.mp (h p hp) ▸ hcontained
    exact (selfContained_weave hnone hcodes).findRawCode.mpr rfl

end compiled

/-- **Raw code stays out.** Where it is not allowed, a template is compiled exactly if none is
found in it as it was written. If its pieces are read alike wherever they stand and, where checks
are enabled, the marks of the environment let guards be read as they are written, then raw code
is found in the compiled text only if it is found in a piece; and it is found in none if the
annotations are read alike too. -/
theorem rawCode_forbidden {env : Environment} {settings : Settings}
    (hforbidden : settings.allowRawCode = false) (origin : Origin) (source out : Text) :
    ((preprocess env settings origin source).value = .ok out ↔
      findRawCode env source = .ok none ∧
        (compile settings env.delimiters source).value = .ok out) ∧
    ((settings.enabled = true → env.Regular) →
      (∀ p ∈ templatePieces source, ∃ runs, SelfContained env runs p) →
      (preprocess env settings origin source).value = .ok out →
      (findRawCode env out = .ok none ↔
        ∀ p ∈ templatePieces source, findRawCode env p = .ok none) ∧
      ((∀ a ∈ (extract source).value, ∃ runs, SelfContained env runs a.text) →
        findRawCode env out = .ok none)) := by
  have hpolicy : (preprocess env settings origin source).value = .ok out ↔ _ :=
    preprocess_ok_iff hforbidden origin source out
  refine ⟨hpolicy, fun henv hpieces hout => ?_⟩
  obtain ⟨hsource, hcompiled⟩ := hpolicy.mp hout
  obtain ⟨edits, hmap, rfl, hcodes⟩ := exists_weave_of_compile henv hcompiled
  have hexact : findRawCode env (weave source 0 edits) = .ok none ↔ _ :=
    findRawCode_weave hmap hpieces hcodes
  exact ⟨hexact, fun htexts => hexact.mpr (findRawCode_pieces hpieces htexts hsource)⟩

/-- In the usual environment a text without an opening brace is plain. -/
theorem selfContained_of_no_brace {t : Text} (h : '\x7b' ∉ t) : SelfContained {} false t := by
  refine selfContained_plain fun c hc before rest => opening?_of_ne_brace ?_ before rest
  split
  · decide
  · exact fun hbrace => h (hbrace ▸ hc)

/-- An annotation before an output, in the usual environment. -/
theorem rawCode_forbidden_of_output :
    ∃ source out, (preprocess {} { allowRawCode := false } {} source).value = .ok out ∧
      ({} : Environment).Regular ∧
      (∀ p ∈ templatePieces source, ∃ runs, SelfContained {} runs p) ∧
      (∀ a ∈ (extract source).value, ∃ runs, SelfContained {} runs a.text) ∧
      findRawCode {} source = .ok none ∧ findRawCode {} out = .ok none := by
  have htexts : (extract "@expects($n)\x7b\x7b n \x7d\x7d".toList).value.map Annotation.text
      = ["@expects($n)".toList] := by
    decide +kernel
  have hpieces : templatePieces "@expects($n)\x7b\x7b n \x7d\x7d".toList
      = [[], "\x7b\x7b n \x7d\x7d".toList] := by
    decide +kernel
  have hword : ∀ t, FitTogether (' ' :: t) [] [.word "n".toList] := fun t =>
    fitTogether_word (by decide) (separates_blank t) rfl
  have htag : Tag.Fits ⟨.output, false, [.word "n".toList]⟩ :=
    fits_of_word (by decide) (by decide) (by decide) hword
  have hsource : Tag.source {} ⟨.output, false, [.word "n".toList]⟩
      = "\x7b\x7b n \x7d\x7d".toList := by
    decide +kernel
  have hcontained : ∀ p ∈ templatePieces "@expects($n)\x7b\x7b n \x7d\x7d".toList,
      ∃ runs, SelfContained {} runs p := by
    rw [hpieces]
    intro p hp
    simp only [List.mem_cons, List.not_mem_nil, or_false] at hp
    rcases hp with rfl | rfl
    · exact ⟨false, selfContained_nil⟩
    · rw [← hsource]
      exact ⟨false, selfContained_tag regular_default htag rfl (by decide)⟩
  have hannotations : ∀ a ∈ (extract "@expects($n)\x7b\x7b n \x7d\x7d".toList).value,
      ∃ runs, SelfContained {} runs a.text := by
    intro a ha
    have hmem := htexts ▸ List.mem_map_of_mem ha
    rw [List.mem_singleton.mp hmem]
    exact ⟨false, selfContained_of_no_brace (by decide)⟩
  have hout : (preprocess {} { allowRawCode := false } {}
      "@expects($n)\x7b\x7b n \x7d\x7d".toList).value
      = .ok ("\x7b% if n is not defined or n is none %\x7d".toList ++
        "\x7b\x7b expects_raise_undefined(\"n\") \x7d\x7d\x7b% endif %\x7d".toList ++
        "\x7b\x7b n \x7d\x7d".toList) := by
    decide +kernel
  obtain ⟨hpolicy, hclean⟩ := @rawCode_forbidden {} { allowRawCode := false } rfl {}
    "@expects($n)\x7b\x7b n \x7d\x7d".toList _
  obtain ⟨_, hnone⟩ := hclean (fun _ => regular_default) hcontained hout
  exact ⟨_, _, hout, regular_default, hcontained, hannotations, (hpolicy.mp hout).1,
    hnone hannotations⟩

/-- Two halves of a mark become a mark where an annotation between them goes. -/
theorem rawCode_at_seam :
    ∃ out, (preprocess {} { allowRawCode := false } {}
        "\x7b@expects()% do x %\x7d".toList).value = .ok out ∧
      findRawCode {} out = .ok (some 1) :=
  ⟨"\x7b% do x %\x7d".toList, by decide +kernel, by decide +kernel⟩

end ViewContract.Template
