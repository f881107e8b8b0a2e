/-
ViewContract.Proofs.Outcome — the text or the error that a compilation ends with.

A compilation that goes through is an interleaving: the pieces of the template stay where they
are, and a code follows each but the last (`compile_spliced`). The code of an annotation comes
from its form and its body alone, so nothing else of the template can get into it. A compilation
that does not go through ends with the first annotation that cannot be read, and names it
(`compile_names_first`).

  §1 the code of an annotation, from its form and body.
  §2 compilations that go through.
  §3 compilations that end with a refused annotation.
-/
import ViewContract.Proofs.OutOfRange
import Mathlib.Data.List.Forall2

namespace ViewContract

open Text
open Annotation (extract wellPlaced_of_mem_extract extract_consecutive)

/-! ## 1. The code of an annotation -/

namespace Annotation

/-- What takes the place of an annotation: the guards of what is declared in it, or nothing where
checks are disabled. -/
def replacement (settings : Settings) (δ : Delimiters) (form : Form) (body : Text) :
    Except BodyError Text :=
  if settings.enabled then do
    let ds ← (read form body).value
    (guardText δ ds).mapError .range
  else .ok []

variable {a : Annotation} {δ : Delimiters} {settings : Settings}

theorem code_eq_ok_iff {t : Text} : a.code δ = .ok t ↔
    ∃ ds, a.declarations.value = .ok ds ∧ guardText δ ds = .ok t := by
  constructor
  · intro h
    obtain ⟨ds, hds, htext⟩ := exists_of_bind_eq_ok h
    exact ⟨ds, hds, eq_ok_of_mapError htext⟩
  · rintro ⟨ds, hds, htext⟩
    rw [code, hds]
    show (guardText δ ds).mapError CompileError.range = _
    rw [htext]
    rfl

/-- An annotation is refused exactly if it cannot be read. -/
theorem code_eq_usage_iff {fault : UsageFault} : a.code δ = .error (.usage fault) ↔
    a.declarations.value = .error (.usage fault) := by
  rw [code]
  cases a.declarations.value with
  | error e =>
    change (Except.error e : Except CompileError Text) = _ ↔ _
    rw [Except.error.injEq, Except.error.injEq]
  | ok ds =>
    refine iff_of_false (fun h => ?_) (fun h => by cases h)
    change (guardText δ ds).mapError CompileError.range = _ at h
    cases htext : guardText δ ds <;> rw [htext] at h <;> cases h

theorem code_of_declarations_error {e : CompileError} (h : a.declarations.value = .error e) :
    a.code δ = .error e := by
  rw [code, h]
  rfl

/-- With checks enabled the code of an annotation takes its place. -/
theorem replacement_eq_ok_iff (h : settings.enabled = true) {t : Text} :
    replacement settings δ a.form a.body = .ok t ↔ a.code δ = .ok t := by
  rw [replacement, if_pos h, code, declarations]
  cases (read a.form a.body).value with
  | error e => exact iff_of_false (fun h => by cases h) (fun h => by cases h)
  | ok ds =>
    show (guardText δ ds).mapError _ = _ ↔ (guardText δ ds).mapError _ = _
    cases guardText δ ds with
    | error e => exact iff_of_false (fun h => by cases h) (fun h => by cases h)
    | ok text => simp [Except.mapError]

theorem replacement_disabled (h : settings.enabled = false) (form : Form) (body : Text) :
    replacement settings δ form body = .ok [] := by
  rw [replacement, h]
  rfl

end Annotation

/-! ## 2. Compilations that go through -/

open Annotation (replacement replacement_eq_ok_iff replacement_disabled code_eq_ok_iff
  code_eq_usage_iff code_of_declarations_error text_of_code_eq_usage)

/-- A list of codes that belong to annotations. -/
abbrev Codes (settings : Settings) (δ : Delimiters) : List Annotation → List Text → Prop :=
  List.Forall₂ fun a code => replacement settings δ a.form a.body = .ok code

variable {settings : Settings} {δ : Delimiters} {source : Text}

/-- Annotations have at most one list of codes. -/
theorem Codes.unique {l : List Annotation} {codes others : List Text}
    (h : Codes settings δ l codes) (h' : Codes settings δ l others) : codes = others := by
  induction h generalizing others with
  | nil => exact (List.forall₂_nil_left_iff.mp h').symm
  | cons hcode _ ih =>
    cases h' with
    | cons hother hothers =>
      rw [hcode] at hother
      rw [Except.ok.inj hother, ih hothers]

theorem codes_disabled (h : settings.enabled = false) (l : List Annotation) :
    Codes settings δ l (l.map fun _ => []) :=
  List.forall₂_map_right_iff.mpr
    (List.forall₂_same.mpr fun a _ => replacement_disabled h a.form a.body)

theorem exists_code_of_mem {l : List Annotation} {codes : List Text}
    (h : Codes settings δ l codes) :
    ∀ a ∈ l, ∃ code, replacement settings δ a.form a.body = .ok code := by
  induction h with
  | nil => exact fun _ h => absurd h List.not_mem_nil
  | cons hcode _ ih => exact List.forall_mem_cons.mpr ⟨⟨_, hcode⟩, ih⟩

/-- A compilation that goes through interleaves the pieces with the codes of the annotations. -/
theorem codes_of_compile {out : Text} (hout : (compile settings δ source).value = .ok out) :
    ∃ codes, Codes settings δ (extract source).value codes ∧
      out = interleave (pieces source 0 (extract source).value) codes := by
  cases henabled : settings.enabled with
  | false =>
    rw [compile_disabled henabled, stripped, weave_eq_interleave, map_fst_edits,
      List.map_map] at hout
    exact ⟨_, codes_disabled henabled _, (Except.ok.inj hout).symm⟩
  | true =>
    obtain ⟨edits, hmap, hg, hok⟩ | ⟨e, _, herror⟩ := compile_enabled henabled δ source
    · rw [hok, weave_eq_interleave, hmap] at hout
      refine ⟨_, ?_, (Except.ok.inj hout).symm⟩
      rw [← hmap] at hg ⊢
      rw [Codes, List.forall₂_map_left_iff, List.forall₂_map_right_iff, List.forall₂_same]
      intro e he
      obtain ⟨code, hsnd, hcode⟩ := code_of_mem_edits hg e he
      rw [hsnd]
      exact (replacement_eq_ok_iff henabled).mpr hcode
    · rw [herror] at hout
      cases hout

/-- Where each annotation has a code, the compilation goes through. -/
theorem compile_of_codes {codes : List Text} (h : Codes settings δ (extract source).value codes) :
    (compile settings δ source).value
      = .ok (interleave (pieces source 0 (extract source).value) codes) := by
  cases hcompile : (compile settings δ source).value with
  | ok out =>
    obtain ⟨others, hothers, rfl⟩ := codes_of_compile hcompile
    rw [h.unique hothers]
  | error e =>
    obtain ⟨henabled, before, a, after, hcut, _, ha⟩ := compile_eq_error_iff.mp hcompile
    have hmem : a ∈ (extract source).value := by
      rw [hcut]
      exact List.mem_append_right before List.mem_cons_self
    obtain ⟨code, hcode⟩ := exists_code_of_mem h a hmem
    rw [(replacement_eq_ok_iff henabled).mp hcode] at ha
    exact nomatch ha

/-- The template is the interleaving of its pieces with the texts of its annotations. -/
theorem interleave_texts (source : Text) :
    interleave (pieces source 0 (extract source).value)
      ((extract source).value.map Annotation.text) = source := by
  have h := weave_texts (extract_consecutive source) fun _ ha => wellPlaced_of_mem_extract ha
  rw [weave_eq_interleave, map_fst_edits, List.map_map] at h
  exact h

/-- **A compilation is a verbatim splice**: the template is its pieces with the texts of the
annotations in turns, and whatever a compilation returns is the same pieces with the codes of the
annotations instead. A code depends on the form and the body of its annotation alone. So a
template without annotations is returned as it is, and with checks disabled the compilation
always goes through and leaves out whatever the codes would be. -/
theorem compile_spliced (settings : Settings) (δ : Delimiters) (source : Text) :
    let spans := (extract source).value
    let gaps := pieces source 0 spans
    (gaps.length = spans.length + 1 ∧ interleave gaps (spans.map Annotation.text) = source) ∧
      (∀ out, (compile settings δ source).value = .ok out ↔
        ∃ codes, List.Forall₂ (fun a code => replacement settings δ a.form a.body = .ok code)
          spans codes ∧ out = interleave gaps codes) ∧
      (spans = [] → (compile settings δ source).value = .ok source) ∧
      (settings.enabled = false → ∀ codes : List Text, codes.length = spans.length →
        (compile settings δ source).value = .ok (interleave gaps (codes.map fun _ => []))) := by
  intro spans gaps
  refine ⟨⟨length_pieces source 0 spans, interleave_texts source⟩,
    fun out => ⟨codes_of_compile, ?_⟩, fun hnone => ?_, fun hdisabled codes _ => ?_⟩
  · rintro ⟨codes, hcodes, rfl⟩
    exact compile_of_codes hcodes
  · have hspans : (extract source).value = [] := hnone
    have htexts := interleave_texts source
    have hcodes : Codes settings δ (extract source).value [] := hspans ▸ List.Forall₂.nil
    rw [hspans] at htexts
    rw [compile_of_codes hcodes, hspans]
    exact congrArg Except.ok htexts
  · rw [compile_of_codes (codes_disabled hdisabled spans), interleave_nils, interleave_nils]

/-- A template with an annotation of either form. -/
def mixed : Text :=
  "a @expects(int $n) b @expects\n@param string $s\n@endexpects c".toList

/-- Both annotations have guards, and without checks the text around them is left. -/
theorem compile_spliced_of_mixed :
    (∃ first second, (compile {} {} mixed).value
      = .ok ("a ".toList ++ first ++ " b ".toList ++ second ++ " c".toList)) ∧
    (compile { enabled := false } {} mixed).value = .ok "a  b  c".toList := by
  have hgaps : pieces mixed 0 (extract mixed).value = ["a ".toList, " b ".toList, " c".toList] := by
    decide +kernel
  have hspans : (extract mixed).value.length = 2 := by
    have hcount := length_pieces mixed 0 (extract mixed).value
    rw [hgaps, List.length_cons, List.length_cons, List.length_singleton] at hcount
    omega
  obtain ⟨_, hcodes, _⟩ := compile_spliced {} {} mixed
  obtain ⟨_, _, _, hdisabled⟩ := compile_spliced { enabled := false } {} mixed
  constructor
  · have hcompiles : ((compile {} {} mixed).value.toOption).isSome = true := by decide +kernel
    cases hout : (compile {} {} mixed).value with
    | error e =>
      rw [hout] at hcompiles
      exact nomatch hcompiles
    | ok out =>
      obtain ⟨codes, hforall, hweave⟩ := (hcodes out).mp hout
      obtain ⟨first, second, rfl⟩ := List.length_eq_two.mp (hforall.length_eq ▸ hspans)
      rw [hweave, hgaps]
      exact ⟨first, second, by simp [interleave]⟩
  · rw [hdisabled rfl [[], []] hspans.symm, hgaps]
    decide +kernel

/-! ## 3. Compilations that end with a refused annotation -/

/-- **A refusal names the first annotation that cannot be read**: it is refused for its body, every
annotation before it has its guards, and the text and the place in the error are its own. Where an
annotation cannot be read and none before it has a number too long for a guard, the compilation
ends with the first that cannot be read, and returns nothing. -/
theorem compile_names_first {settings : Settings} (henabled : settings.enabled = true)
    (δ : Delimiters) (source : Text) :
    (∀ fault, (compile settings δ source).value = .error (.usage fault) ↔
      StopsAt (fun b => ∃ ds, b.declarations.value = .ok ds ∧ ∃ code, guardText δ ds = .ok code)
        (fun a => a.declarations.value = .error (.usage fault) ∧
          fault.offset = a.start ∧ fault.text = a.text ∧
          fault.text = (source.drop fault.offset).take fault.text.length)
        (extract source).value) ∧
    (StopsAt (fun b => ∀ ds, b.declarations.value = .ok ds → ∃ code, guardText δ ds = .ok code)
        (fun a => ∃ e, a.declarations.value = .error e) (extract source).value →
      ∃ e, (compile settings δ source).value = .error e ∧
        StopsAt
          (fun b => ∃ ds, b.declarations.value = .ok ds ∧ ∃ code, guardText δ ds = .ok code)
          (fun a => a.declarations.value = .error e) (extract source).value) := by
  have hpasses : ∀ b : Annotation, (∃ code, b.code δ = .ok code) ↔
      ∃ ds, b.declarations.value = .ok ds ∧ ∃ code, guardText δ ds = .ok code := by
    intro b
    simp only [code_eq_ok_iff]
    exact ⟨fun ⟨code, ds, h⟩ => ⟨ds, h.1, code, h.2⟩, fun ⟨ds, h, code, h'⟩ => ⟨code, ds, h, h'⟩⟩
  constructor
  · intro fault
    rw [compile_eq_error_iff, and_iff_right henabled]
    constructor
    · refine fun h => h.imp (fun b _ => (hpasses b).mp) fun a ha hcode => ?_
      obtain ⟨htext, hoffset⟩ := text_of_code_eq_usage hcode
      have hplaced := wellPlaced_of_mem_extract ha
      have hlength : a.text.length = a.stop - a.start := by
        have := hplaced.stop_le_length
        rw [hplaced.text_eq, List.length_take, List.length_drop]
        omega
      refine ⟨code_eq_usage_iff.mp hcode, hoffset, htext, ?_⟩
      rw [htext, hoffset, hlength]
      exact hplaced.text_eq
    · exact fun h => h.imp (fun b _ => (hpasses b).mpr)
        fun a _ ha => code_eq_usage_iff.mpr ha.1
  · intro h
    obtain ⟨e, he⟩ := h.first
    refine ⟨e, compile_eq_error_iff.mpr ⟨henabled, ?_⟩, he⟩
    exact he.imp (fun b _ => (hpasses b).mpr) fun a _ ha => code_of_declarations_error ha

/-- The second of three annotations is refused: its type is not closed. -/
def secondRefused : Text :=
  "@expects(int $n) @expects(array< $x) @expects(int)".toList

/-- The refusal names the second annotation, though the third cannot be read either. -/
theorem compile_names_second :
    ∃ fault, (compile {} {} secondRefused).value = .error (.usage fault) ∧
      StopsAt (fun b => ∃ ds, b.declarations.value = .ok ds ∧ ∃ code, guardText {} ds = .ok code)
        (fun a => a.declarations.value = .error (.usage fault) ∧
          fault.offset = 17 ∧ fault.text = "@expects(array< $x)".toList)
        (extract secondRefused).value := by
  have hcompile : (compile {} {} secondRefused).value = .error (.usage
      (.grammar (.unexpectedCharacter '<' 5) "@expects(array< $x)".toList 17)) := by
    decide +kernel
  obtain ⟨hnames, _⟩ := @compile_names_first {} rfl {} secondRefused
  have hfirst := (hnames _).mp hcompile
  exact ⟨_, hcompile, hfirst.imp (fun _ _ h => h) fun _ _ h => ⟨h.1, rfl, rfl⟩⟩

end ViewContract
