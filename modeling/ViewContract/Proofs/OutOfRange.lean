/-
ViewContract.Proofs.OutOfRange — compilations that end with something out of range.

Whatever is wrong with an annotation, it is refused as a whole and named by its text and place.
The exception is a number out of range, or a default that nests deeper than the stack has room for,
which end the compilation with no annotation named:

  §1 guards. Only an integer with too many digits has no text.
  §2 annotations. One is out of range for such an integer as a default, for an integer beyond the
     doubles as the default of a `float` in a doc comment, or for arrays that nest too deep in a
     parameter list (`code_eq_range_iff`).
  §3 compilations, which end with the first annotation that fails (`compile_eq_error_iff`), and
     what becomes of a template (`compile_faults`).
-/
import ViewContract.Proofs.Compile
import ViewContract.Proofs.Docblock.Range
import ViewContract.Proofs.Guard.Written
import ViewContract.Proofs.Signature.Depth
import ViewContract.Template.Preprocess

namespace ViewContract

open Text

/-! ## 1. Guards -/

theorem Literal.eq_digits_of_source {l : Literal} {fault : RangeFault}
    (h : l.source = .error fault) :
    fault = .digits := by
  cases l with
  | int n =>
    rw [source] at h
    cases hn : Number.decimalText? n with
    | ok t =>
      rw [hn] at h
      cases h
    | error e =>
      rw [hn] at h
      exact (Except.error.inj h).symm
  | null | float _ | string _ => cases h

theorem Guard.eq_digits_of_action {δ : Delimiters} {g : Guard} {fault : RangeFault}
    (h : g.action δ = .error fault) : fault = .digits := by
  cases g with
  | fallback name default =>
    rcases error_of_bind h with h | ⟨_, _, h⟩
    · exact Literal.eq_digits_of_source h
    · exact nomatch h
  | present _ | ofKind _ _ | ofClass _ _ => exact nomatch h

/-- Guards have no text only for a number with too many digits. -/
theorem Guard.eq_digits_of_statementsAfter {δ : Delimiters} {gs : List Guard} {count : Nat}
    {fault : RangeFault} (h : statementsAfter δ count gs = .error fault) : fault = .digits := by
  induction gs generalizing count with
  | nil => exact nomatch h
  | cons g gs ih =>
    rcases error_of_bind h with h | ⟨_, _, h⟩
    · rcases error_of_bind h with h | ⟨_, _, h⟩
      · exact Guard.eq_digits_of_action h
      · exact nomatch h
    · rcases error_of_bind h with h | ⟨_, _, h⟩
      · exact ih h
      · exact nomatch h

/-- A declaration whose default has too many digits. -/
def Declaration.TooLong (d : Declaration) : Prop :=
  d.required = false ∧ ∃ n, d.default = some (.int n) ∧
    Number.digitLimit < Number.decimalLength n.natAbs

theorem Declaration.tooLong_iff {d : Declaration} :
    d.TooLong ↔ ¬ (d.required = false → (d.default.getD .null).Short) := by
  rw [Classical.not_imp]
  refine and_congr_right fun _ => ?_
  cases hdefault : d.default with
  | none => exact iff_of_false (fun ⟨_, h, _⟩ => nomatch h) (not_not.mpr nofun)
  | some l =>
    constructor
    · rintro ⟨n, hn, hlong⟩ hshort
      exact absurd (hshort n (Option.some.inj hn)) (Nat.not_le.mpr hlong)
    · intro hlong
      simp only [Literal.Short, Option.getD_some] at hlong
      push Not at hlong
      obtain ⟨n, rfl, hn⟩ := hlong
      exact ⟨n, rfl, hn⟩

instance (d : Declaration) : Decidable d.TooLong :=
  decidable_of_iff' _ Declaration.tooLong_iff

/-- Declarations have no guards exactly if one has a default with too many digits. -/
theorem guardText_eq_error_iff {δ : Delimiters} {ds : List Declaration} {fault : RangeFault} :
    guardText δ ds = .error fault ↔ fault = .digits ∧ ∃ d ∈ ds, d.TooLong := by
  have hexists := exists_guardText_iff δ ds
  constructor
  · intro h
    refine ⟨Guard.eq_digits_of_statementsAfter h, ?_⟩
    have hnot : ¬ ∃ t, guardText δ ds = .ok t := by
      rintro ⟨t, ht⟩
      rw [h] at ht
      exact nomatch ht
    rw [hexists] at hnot
    push Not at hnot
    obtain ⟨d, hd, hrequired, hlong⟩ := hnot
    exact ⟨d, hd, Declaration.tooLong_iff.mpr fun h => hlong (h hrequired)⟩
  · rintro ⟨rfl, d, hd, hlong⟩
    cases htext : guardText δ ds with
    | ok t => exact absurd (hexists.mp ⟨t, htext⟩ d hd) (Declaration.tooLong_iff.mp hlong)
    | error e => rw [Guard.eq_digits_of_statementsAfter htext]

/-! ## 2. Annotations -/

namespace Annotation

/-- An annotation that is out of range: with a default with too many digits among what it declares,
with an integer beyond the doubles as the default of a `float` in a doc comment, where the tags
before are read, or with a default of a parameter list that nests deeper than the stack has room
for. -/
def OutOfRange (a : Annotation) : RangeFault → Prop
  | .digits => ∃ ds, (read a.form a.body).value = .ok ds ∧ ∃ d ∈ ds, d.TooLong
  | .overflow => a.form = .block ∧
      StopsAt (fun tag => tag.declares = true → ∃ d, tag.declaration = .ok d)
        (fun tag => tag.declares = true ∧ tag.Overflows) (Docblock.tags a.body)
  | .depth => a.form = .expression ∧ Signature.NestsDeeper a.body Signature.stackRoom

/-- A body is not read for being out of range where its annotation is, except for the digits of an
integer, which it is read with. -/
theorem read_eq_range_iff {a : Annotation} {fault : RangeFault} :
    (read a.form a.body).value = .error (.range fault) ↔ fault ≠ .digits ∧ a.OutOfRange fault := by
  cases hform : a.form with
  | expression =>
    refine Signature.declarations_eq_range_iff.trans ?_
    cases fault <;> simp [OutOfRange, hform]
  | block =>
    refine Docblock.declarations_eq_range_iff.trans ?_
    cases fault <;> simp [OutOfRange, hform]

/-- An annotation whose body is not read has the error of its body. -/
theorem code_of_read_error {a : Annotation} {e : BodyError}
    (h : (read a.form a.body).value = .error e) (δ : Delimiters) :
    a.code δ = .error (a.blame e) := by
  rw [code, declarations, h]
  rfl

/-- An annotation has no guards for being out of range exactly if it is. -/
theorem code_eq_range_iff {a : Annotation} {δ : Delimiters} {fault : RangeFault} :
    a.code δ = .error (.range fault) ↔ a.OutOfRange fault := by
  have hrange := @read_eq_range_iff a fault
  cases hread : (read a.form a.body).value with
  | ok ds =>
    have htext : a.code δ = .error (.range fault) ↔ guardText δ ds = .error fault := by
      rw [code_of_read hread]
      cases guardText δ ds <;> simp [Except.mapError]
    rw [htext, guardText_eq_error_iff]
    rw [hread] at hrange
    cases fault with
    | digits => simp [OutOfRange, hread]
    | overflow | depth =>
      exact iff_of_false (fun h => nomatch h.1) fun h => nomatch hrange.mpr ⟨nofun, h⟩
  | error e =>
    have hblame : a.code δ = .error (.range fault) ↔ e = .range fault := by
      rw [code_of_read_error hread]
      cases e <;> simp [blame]
    rw [hread, Except.error.injEq] at hrange
    rw [hblame, hrange]
    cases fault with
    | digits => simp [OutOfRange, hread]
    | overflow | depth => exact and_iff_right nofun

/-- An annotation that is refused is named by its text and place. -/
theorem text_of_code_eq_usage {a : Annotation} {δ : Delimiters} {fault : UsageFault}
    (h : a.code δ = .error (.usage fault)) : fault.text = a.text ∧ fault.offset = a.start := by
  cases hread : (read a.form a.body).value with
  | ok ds =>
    rw [code_of_read hread] at h
    cases htext : guardText δ ds with
    | ok t =>
      rw [htext] at h
      exact nomatch h
    | error e =>
      rw [htext] at h
      exact nomatch Except.error.inj h
  | error e =>
    rw [code_of_read_error hread] at h
    cases e with
    | grammar cause =>
      obtain rfl := CompileError.usage.inj (Except.error.inj h)
      exact ⟨rfl, rfl⟩
    | default cause =>
      obtain rfl := CompileError.usage.inj (Except.error.inj h)
      exact ⟨rfl, rfl⟩
    | range fault => exact nomatch Except.error.inj h

end Annotation

/-! ## 3. Compilations -/

open Annotation (extract code_eq_range_iff)

/-- Annotations fail to become replacements with the first that has no guards. -/
theorem guardReplacements_eq_error_iff {δ : Delimiters} {l : List Annotation} {e : CompileError} :
    guardReplacements δ l = .error e ↔
      StopsAt (fun a => ∃ code, a.code δ = .ok code) (fun a => a.code δ = .error e) l := by
  induction l with
  | nil => exact iff_of_false nofun not_stopsAt_nil
  | cons a l ih =>
    rw [guardReplacements, stopsAt_cons, ← ih]
    cases hcode : a.code δ with
    | error e' => simp [bind, Except.bind]
    | ok code =>
      cases guardReplacements δ l with
      | error e' => simp [bind, Except.bind]
      | ok replacements => simp [bind, Except.bind, pure, Except.pure]

/-- **A compilation ends with the first annotation that has no guards**, and has its error. -/
theorem compile_eq_error_iff {settings : Settings} {δ : Delimiters} {source : Text}
    {e : CompileError} : (compile settings δ source).value = .error e ↔ settings.enabled = true ∧
      StopsAt (fun a => ∃ code, a.code δ = .ok code) (fun a => a.code δ = .error e)
        (extract source).value := by
  rw [← guardReplacements_eq_error_iff]
  cases henabled : settings.enabled with
  | false =>
    rw [compile_disabled henabled]
    exact iff_of_false nofun fun h => nomatch h.1
  | true =>
    obtain ⟨edits, _, hg, hok⟩ | ⟨e', hg, herr⟩ := compile_enabled henabled δ source
    · rw [hok, hg]
      exact iff_of_false nofun fun h => nomatch h.2
    · rw [herr, hg]
      simp

/-- What a preprocessing passes on: a refusal, or the error of the compilation as it is. -/
theorem refused_or_compile_of_preprocess {env : Template.Environment} {settings : Settings}
    {origin : Template.Origin} {source : Text} {e : Template.TemplateError}
    (h : (Template.preprocess env settings origin source).value = .error e) :
    (∃ refusal, e = .refused refusal) ∨ ∃ fault, e = .range fault ∧
      (compile settings env.delimiters source).value = .error (.range fault) := by
  rw [Template.preprocess] at h
  split at h
  · rename_i e' hraw
    obtain rfl := Except.error.inj h
    rw [Template.checkRawCode] at hraw
    split at hraw
    · exact nomatch hraw
    · split at hraw
      · exact nomatch hraw
      · exact .inl ⟨_, (Except.error.inj hraw).symm⟩
      · exact .inl ⟨_, (Except.error.inj hraw).symm⟩
  · dsimp only at h
    cases hcompile : (compile settings env.delimiters source).value with
    | ok out =>
      rw [hcompile] at h
      exact nomatch h
    | error fault =>
      rw [hcompile] at h
      obtain rfl := Except.error.inj h
      cases fault with
      | usage fault => exact .inl ⟨_, rfl⟩
      | range fault => exact .inr ⟨fault, rfl, rfl⟩
      | overlap fault => exact absurd hcompile (compile_ne_overlap settings _ source fault)

/-- **What becomes of a template**: it is compiled, or refused with the text and place of one of
its annotations, or the first annotation without guards is one out of range. The preprocessing of a
template refuses it unless such an error is passed on.

Nothing else can happen as long as the stack has room for the parentheses in the types of doc
comments: how deep the defaults of a parameter list nest is counted, how deep types do is not. -/
theorem compile_faults (settings : Settings) (δ : Delimiters) (source : Text) :
    ((∃ out, (compile settings δ source).value = .ok out) ∨
      (∃ fault, (compile settings δ source).value = .error (.usage fault) ∧
        ∃ a ∈ (extract source).value,
          fault.text = a.text ∧ fault.offset = a.start) ∨
      ∃ fault, (compile settings δ source).value = .error (.range fault)) ∧
    (∀ fault, (compile settings δ source).value = .error (.range fault) ↔
      settings.enabled = true ∧ StopsAt (fun a => ∃ code, a.code δ = .ok code)
        (fun a => a.OutOfRange fault) (extract source).value) ∧
    ∀ (env : Template.Environment) (origin : Template.Origin) (e : Template.TemplateError),
      env.delimiters = δ → (Template.preprocess env settings origin source).value = .error e →
      (∃ refusal, e = .refused refusal) ∨
        ∃ fault, e = .range fault ∧ (compile settings δ source).value = .error (.range fault) := by
  refine ⟨?_, fun fault => ?_, ?_⟩
  · cases hcompile : (compile settings δ source).value with
    | ok out => exact .inl ⟨out, rfl⟩
    | error e =>
      obtain ⟨_, before, a, after, hcut, _, hcode⟩ := compile_eq_error_iff.mp hcompile
      have ha : a ∈ (extract source).value := by
        rw [hcut]
        exact List.mem_append_right before List.mem_cons_self
      cases e with
      | usage fault => exact .inr (.inl ⟨fault, rfl, a, ha, a.text_of_code_eq_usage hcode⟩)
      | range fault => exact .inr (.inr ⟨fault, rfl⟩)
      | overlap fault => exact absurd hcompile (compile_ne_overlap settings δ source fault)
  · rw [compile_eq_error_iff]
    simp only [code_eq_range_iff]
  · rintro env origin e rfl h
    exact refused_or_compile_of_preprocess h

/-- An integer beyond the doubles as the default of a `float` in a doc comment. -/
def overflowing : Text :=
  "@expects\n@param float $x (default: 0x1".toList ++ List.replicate 256 '0' ++
    ")\n@endexpects".toList

theorem compile_overflowing : (compile {} {} overflowing).value = .error (.range .overflow) := by
  decide +kernel

/-- A compilation can end without a template and without a refused annotation. -/
theorem compile_escapes :
    ¬ ∀ (settings : Settings) (δ : Delimiters) (source : Text),
      (∃ out, (compile settings δ source).value = .ok out) ∨
        ∃ fault, (compile settings δ source).value = .error (.usage fault) := by
  intro h
  rcases h {} {} overflowing with ⟨out, hout⟩ | ⟨fault, hfault⟩
  · rw [compile_overflowing] at hout
    exact nomatch hout
  · rw [compile_overflowing] at hfault
    exact nomatch hfault

/-- The annotation that ends this compilation, and the preprocessing, which does not refuse it. -/
theorem compile_faults_of_overflowing :
    (∃ a ∈ (extract overflowing).value, a.OutOfRange .overflow) ∧
      ∃ fault, (Template.preprocess {} {} {} overflowing).value = .error (.range fault) := by
  obtain ⟨_, hrange, hpreprocess⟩ := compile_faults {} {} overflowing
  constructor
  · obtain ⟨_, before, a, after, hcut, _, ha⟩ := (hrange .overflow).mp compile_overflowing
    exact ⟨a, by rw [hcut]; exact List.mem_append_right before List.mem_cons_self, ha⟩
  · have herror : (Template.preprocess {} {} {} overflowing).value = .error (.range .overflow) := by
      decide +kernel
    rcases hpreprocess {} {} _ rfl herror with ⟨refusal, h⟩ | ⟨fault, h, _⟩
    · exact nomatch h
    · exact ⟨fault, h ▸ herror⟩

end ViewContract
