/-
ViewContract.Proofs.Guard.RawCode — guards hold no raw code.

A variable may be called `do`, and the text of a default may hold a whole statement. Neither
makes raw code of a guard: its statements begin with words of their own, and a default stands in
a string. So the text of guards is self-contained in a regular environment, and no raw code is
found in it (`selfContained_guardText`).
-/
import ViewContract.Proofs.Guard.Scan
import ViewContract.Proofs.Guard.Written
import ViewContract.Proofs.Template.SelfContained

namespace ViewContract.Template

open ViewContract.Text

/-! ## 1. Tags -/

theorem beginsStatement_of_written {t : Token} (h : t.kind.IsWritten) :
    beginsStatement t = false := by
  obtain ⟨line, kind, text⟩ := t
  rcases h with h | h | h | h | h <;> simp only at h <;> subst h <;> rfl

theorem beginsStatement_of_mem_tokens {c : Chunk} (hc : c.kind.IsWritten) {line : Nat} {t : Token}
    (ht : t ∈ c.tokens line) : beginsStatement t = false := by
  rw [Chunk.tokens] at ht
  split at ht
  · rcases List.mem_cons.mp ht with rfl | ht
    · rfl
    · rw [List.mem_singleton.mp ht]
      exact beginsStatement_of_written hc
  · rw [List.mem_singleton.mp ht]
    exact beginsStatement_of_written hc

/-- Only text and comments are dropped. -/
theorem isKept_of_kind {t : Token} (h : t.kind ≠ .data ∧ t.kind ≠ .comment) : isKept t = true := by
  simp [isKept, h]

theorem isKept_of_mem_tokens {g : Tag} (hg : g.Fits) {δ : Delimiters} {line : Nat} {t : Token}
    (ht : t ∈ g.tokens δ line) : isKept t = true := by
  have hwritten : ∀ c ∈ g.chunks, ∀ u ∈ c.tokens line, isKept u = true := by
    intro c hc u hu
    obtain ⟨v, hv⟩ := hg.written c hc
    have hkind : c.kind ≠ .data ∧ c.kind ≠ .comment := by
      rcases hv.kind with h | h | h | h | h <;> rw [h] <;> decide
    rw [Chunk.tokens] at hu
    split at hu
    · rcases List.mem_cons.mp hu with rfl | hu
      · exact isKept_of_kind ⟨by simp, by simp⟩
      · rw [List.mem_singleton.mp hu]
        exact isKept_of_kind hkind
    · rw [List.mem_singleton.mp hu]
      exact isKept_of_kind hkind
  rw [Tag.tokens, List.mem_append, List.mem_cons, List.mem_flatMap] at ht
  rcases ht with (rfl | ⟨c, hc, ht⟩) | ht
  · exact isKept_of_kind (by cases g.kind <;> simp [TagKind.startToken])
  · exact hwritten c hc t ht
  · simp only [List.mem_cons, List.not_mem_nil, or_false] at ht
    rcases ht with rfl | rfl
    · exact isKept_of_kind ⟨by simp, by simp⟩
    · exact isKept_of_kind (by cases g.kind <;> simp [TagKind.endToken])

/-- A tag whose first word is not `do` holds no raw code. -/
theorem decided_tag {g : Tag} (hg : g.Fits) {w : Text} {cs : List Chunk}
    (hchunks : g.chunks = .word w :: cs) (hw : w ≠ "do".toList) (δ : Delimiters) (line : Nat)
    (read : Text) : Decided false ((g.tokensAfter δ line read).filter isKept) := by
  have hdata : Decided false ([⟨line, .data, keptText read (signOf g.trim)⟩].filter isKept) := by
    refine decided_of_plain fun t ht => ?_
    rw [List.mem_singleton.mp (List.mem_filter.mp ht).1]
    rfl
  have htag : Decided false (g.tokens δ (line + lineFeeds read)) := by
    rw [Tag.tokens, hchunks]
    refine decided_statement (by cases g.kind <;> simp [TagKind.startToken]) rfl
      (by simp [Chunk.word]) ?_ rfl
      fun t ht => ?_
    · exact Bool.and_eq_false_imp.mpr fun _ => decide_eq_false hw
    · rcases List.mem_append.mp ht with ht | ht
      · obtain ⟨c, hc, ht⟩ := List.mem_flatMap.mp ht
        obtain ⟨u, hu⟩ := hg.written c (hchunks ▸ List.mem_cons_of_mem _ hc)
        exact beginsStatement_of_mem_tokens hu.kind ht
      · simp only [List.mem_cons, List.not_mem_nil, or_false] at ht
        rcases ht with rfl | rfl
        · rfl
        · cases g.kind <;> rfl
  have hkept : (g.tokensAfter δ line read).filter isKept
      = [⟨line, .data, keptText read (signOf g.trim)⟩].filter isKept
        ++ g.tokens δ (line + lineFeeds read) := by
    have hall : (g.tokens δ (line + lineFeeds read)).filter isKept
        = g.tokens δ (line + lineFeeds read) :=
      List.filter_eq_self.mpr fun t ht => isKept_of_mem_tokens hg ht
    rw [Tag.tokensAfter, ← List.singleton_append, List.filter_append, hall]
  rw [hkept]
  exact hdata.append htag

/-- A tag whose first word is not `do` is read alike wherever it stands. -/
theorem selfContained_tag {env : Environment} (henv : env.Regular) {g : Tag} (hg : g.Fits)
    {w : Text} {cs : List Chunk} (hchunks : g.chunks = .word w :: cs) (hw : w ≠ "do".toList) :
    SelfContained env false (g.source env.delimiters) := by
  have hline := hg.oneLine henv
  obtain ⟨c, mark, hmark, hc⟩ := henv.starts _ (mem_tagMarks env g.kind)
  have hmark' : g.kind.startMark env.delimiters = c :: mark := hmark
  refine selfContained_of_passes (fun h => (hline _ h).2 rfl)
    (fun h => (hline _ (List.mem_of_getLast? h)).1 rfl) ⟨c, _, by rw [Tag.source, hmark']; rfl, hc⟩
    fun before rest line read => ?_
  exact ⟨_, _, _, passes_tag henv hg, decided_tag hg hchunks hw env.delimiters line read⟩

end ViewContract.Template

namespace ViewContract

open Template Text

/-! ## 2. Guards -/

/-- The tags of a guard begin with words of the language, or with the name of a function that
reports. -/
theorem Guard.exists_word_of_mem_tags {g : Guard} {trim : Bool} {tag : Tag}
    (h : tag ∈ g.tags trim) : ∃ w cs, tag.chunks = .word w :: cs ∧ w ≠ "do".toList := by
  rw [tags] at h
  simp only [List.mem_cons, List.not_mem_nil, or_false] at h
  rcases h with rfl | rfl | rfl
  · exact ⟨_, _, rfl, by decide⟩
  · cases g <;> exact ⟨_, _, rfl, by decide⟩
  · exact ⟨_, _, rfl, by decide⟩

section guards

variable {env : Environment} (henv : env.Regular)

include henv

theorem selfContained_statement {g : Guard} (hg : g.Writable) {trim : Bool} {t : Text}
    (h : g.statement env.delimiters trim = .ok t) : SelfContained env false t := by
  have htag : ∀ tag ∈ g.tags trim, SelfContained env false (tag.source env.delimiters) := by
    intro tag hmem
    obtain ⟨w, cs, hchunks, hw⟩ := Guard.exists_word_of_mem_tags hmem
    exact selfContained_tag henv (Guard.fits_of_mem_tags hg hmem) hchunks hw
  rw [Guard.statement_eq hg h]
  generalize g.tags trim = tags at htag
  induction tags with
  | nil => exact selfContained_nil
  | cons tag tags ih =>
    rw [List.flatMap_cons]
    exact (htag tag List.mem_cons_self).append
      (ih fun other hother => htag other (List.mem_cons_of_mem tag hother))

theorem selfContained_statementsAfter {gs : List Guard} (hgs : ∀ g ∈ gs, g.Writable) {count : Nat}
    {t : Text} (h : Guard.statementsAfter env.delimiters count gs = .ok t) :
    SelfContained env false t := by
  induction gs generalizing count t with
  | nil => exact Except.ok.inj h ▸ selfContained_nil
  | cons g gs ih =>
    obtain ⟨statement, hstatement, h⟩ := exists_of_bind_eq_ok h
    obtain ⟨others, hothers, h⟩ := exists_of_bind_eq_ok h
    have hfeed : SelfContained env false (if 0 < count then ['\n'] else []) := by
      split
      · exact selfContained_char fun _ => opening?_lineFeed henv
      · exact selfContained_nil
    have hfirst := selfContained_statement henv (hgs g List.mem_cons_self) hstatement
    have hrest := ih (fun g' hg' => hgs g' (List.mem_cons_of_mem g hg')) hothers
    exact Except.ok.inj h ▸ (hfeed.append hfirst).append hrest

/-- The text of guards is read alike wherever it stands, and holds no raw code. -/
theorem selfContained_guardText {ds : List Declaration} (hsound : ∀ d ∈ ds, d.Sound) {text : Text}
    (htext : guardText env.delimiters ds = .ok text) : SelfContained env false text :=
  selfContained_statementsAfter henv (writable_of_guardText hsound htext) htext

end guards

end ViewContract
