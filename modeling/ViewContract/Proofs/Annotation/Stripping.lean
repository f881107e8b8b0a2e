/-
ViewContract.Proofs.Annotation.Stripping — what stripping leaves behind.

With checks disabled all annotations are removed in one pass over the offsets of the
template as it was. The result may hold annotations nevertheless: an opening word that was
none, for want of a parenthesis, meets one when the annotation behind it is gone
(`stripped_not_clean`). This module says exactly when that happens:

  §1 a template without annotations, in terms of the two tests.
  §2 an opening word that stripping leaves behind stood as a whole in the template, outside
     its annotations (`Stray`): no seam forms one.
  §3 such a word opens a block only where a block was removed directly in front of it
     (`not_block_of_mayFollow`). Elsewhere a closing word behind it would have made it a
     block before.
  §4 so a stripped template is free of annotations exactly if the text behind each stray
     word reads as none.
-/
import ViewContract.Proofs.Annotation.Outside

namespace ViewContract.Annotation

open ViewContract.Text

/-! ## 1. No annotations -/

/-- Whether a text begins with a parameter list does not depend on its offset. -/
theorem expressionHere?_eq_none_iff (m n : Nat) (t : Text) :
    expressionHere? m t = none ↔ expressionHere? n t = none := by
  have hone : ∀ m n, expressionHere? m t = none → expressionHere? n t = none := by
    intro m n h
    simp only [expressionHere?, Option.bind_eq_bind, Option.bind_eq_none_iff] at h ⊢
    intro afterWord hword
    have := h afterWord hword
    split at this <;> simp_all
  exact ⟨hone m n, hone n m⟩

/-- Whether a text begins with a block does not depend on its offset. -/
theorem blockHere?_eq_none_iff (m n : Nat) (t : Text) :
    blockHere? m t = none ↔ blockHere? n t = none := by
  have hone : ∀ m n, blockHere? m t = none → blockHere? n t = none := by
    intro m n h
    simp only [blockHere?, Option.bind_eq_bind, Option.bind_eq_none_iff] at h ⊢
    intro afterWord hword
    have := h afterWord hword
    split at this <;> simp_all
  exact ⟨hone m n, hone n m⟩

/-- A template has no annotations exactly if neither test finds one anywhere. -/
theorem extract_eq_nil_iff (source : Text) :
    (extract source).value = [] ↔ ∀ u v, source = u ++ v → mayFollow u.getLast? = true →
      expressionHere? u.length v = none ∧ blockHere? u.length v = none := by
  have hnil : (extract source).value = [] ↔ expressions source = [] ∧ blocks source = [] := by
    rw [extract_value, ← List.length_eq_zero_iff, (sortOn_perm _ _).length_eq,
      List.length_eq_zero_iff, List.append_eq_nil_iff]
    constructor
    · rintro ⟨hb, he⟩
      rw [freeExpressions, hb] at he
      exact ⟨by simpa using he, hb⟩
    · rintro ⟨he, hb⟩
      exact ⟨hb, by rw [freeExpressions, he]; rfl⟩
  rw [hnil, expressions, blocks, scanFrom_eq_nil_iff expressionHere?_findsPieces,
    scanFrom_eq_nil_iff blockHere?_findsPieces]
  constructor
  · intro ⟨he, hb⟩ u v hs hmay
    exact ⟨he u v hs hmay, hb u v hs hmay⟩
  · intro h
    exact ⟨fun u v hs hmay => (h u v hs hmay).1, fun u v hs hmay => (h u v hs hmay).2⟩

/-! ## 2. Stray words -/

/-- A block of the template ends here. -/
def BehindBlock (source x : Text) : Prop :=
  ∃ a ∈ (extract source).value, a.form = .block ∧ a.stop = x.length

/-- An opening word that no annotation covers, at a place where an annotation may begin or
where a block was removed directly in front. -/
structure Stray (source x y : Text) : Prop where
  cut : source = x ++ y
  uncovered : covers (extract source).value x.length = false
  opens : opener <+: y
  before : mayFollow x.getLast? = true ∨ BehindBlock source x

/-- What is left of a text at an offset once the annotations of a template are removed. -/
def remainder (source : Text) (n : Nat) (t : Text) : Text :=
  outside (extract source).value n t

theorem stripped_eq_remainder (source : Text) : stripped source = remainder source 0 source :=
  weave_removals source _ 0 (extract_consecutive source)

/-- A cut of the template cuts the stripped template. -/
theorem stripped_eq_append {source x y : Text} (h : source = x ++ y) :
    stripped source = remainder source 0 x ++ remainder source x.length y := by
  have hcut := outside_append (extract source).value x y 0
  rw [← h, Nat.zero_add] at hcut
  rw [stripped_eq_remainder]
  exact hcut

theorem mayFollow_of_mem_opener (c : Char) (hc : c ∈ opener) : mayFollow (some c) = false := by
  have hall : (opener.all fun c => !mayFollow (some c)) = true := by decide
  simpa using List.all_eq_true.mp hall c hc

theorem mayFollow_of_mem_blockCloser (c : Char) (hc : c ∈ blockCloser) :
    mayFollow (some c) = false := by
  have hall : (blockCloser.all fun c => !mayFollow (some c)) = true := by decide
  simpa using List.all_eq_true.mp hall c hc

section seams

variable {source x y : Text}

/-- What is outside in front of a place that is not covered ends as the template does
there, or at a seam. -/
theorem getLast_remainder (hsource : source = x ++ y)
    (hcov : covers (extract source).value x.length = false) :
    (remainder source 0 x).getLast? = x.getLast? ∨
      (∃ a ∈ (extract source).value, a.stop = x.length) ∧
        mayFollow (remainder source 0 x).getLast? = true := by
  rcases List.eq_nil_or_concat x with rfl | ⟨w, c, rfl⟩
  · exact .inl rfl
  · rw [List.concat_eq_append] at hsource hcov ⊢
    have hlen : (w ++ [c]).length = w.length + 1 := by simp
    rw [hlen] at hcov ⊢
    cases hlast : covers (extract source).value w.length with
    | false =>
      left
      rw [remainder, outside_append, Nat.zero_add, outside_cons_of_not_covers hlast, outside,
        List.getLast?_concat, List.getLast?_concat]
    | true =>
      obtain ⟨a, ha, hstop⟩ := stop_of_covers hlast hcov
      refine .inr ⟨⟨a, ha, hstop⟩, ?_⟩
      have := mayFollow_outside_stop (laid_extract source) ha
      rwa [hstop, ← hlen, hsource, List.take_left, ← hsource] at this

/-- An opening word of the stripped template is a stray word of the template. -/
theorem stray_of_opener {v : Text} (hsource : source = x ++ y)
    (hcov : covers (extract source).value x.length = false)
    (hmay : mayFollow (remainder source 0 x).getLast? = true)
    (hopens : remainder source x.length y = opener ++ v) : Stray source x y := by
  obtain ⟨z, hz, _⟩ := glued_of_outside (laid_extract source) hsource hcov (by decide)
    mayFollow_of_mem_opener hopens
  refine ⟨hsource, hcov, ⟨z, hz.symm⟩, ?_⟩
  rcases getLast_remainder hsource hcov with hsame | ⟨⟨a, ha, hstop⟩, _⟩
  · rw [hsame] at hmay
    exact .inl hmay
  · cases hform : a.form with
    | block => exact .inr ⟨a, ha, hform, hstop⟩
    | expression =>
      have hplaced := (laid_extract source).placed a ha
      rw [hsource] at hplaced
      rw [hplaced.getLast_eq hform hstop]
      exact .inl rfl

/-- A stray word is one at which the stripped template may hold an annotation. -/
theorem Stray.mayFollow_remainder (h : Stray source x y) :
    mayFollow (remainder source 0 x).getLast? = true := by
  rcases getLast_remainder h.cut h.uncovered with hsame | ⟨_, hmay⟩
  · rcases h.before with hmay | ⟨a, ha, _, hstop⟩
    · rw [hsame]
      exact hmay
    · have := mayFollow_outside_stop (laid_extract source) ha
      have htake : source.take a.stop = x := by rw [hstop, h.cut, List.take_left]
      rwa [htake] at this
  · exact hmay

end seams

/-! ## 3. Blocks -/

section blocks

variable {source x z : Text}

/-- Behind a place that is not covered, no annotation reaches over. -/
theorem stop_le_of_not_covers (hcov : covers (extract source).value (x.length - 1) = false)
    {a : Annotation} (ha : a ∈ (extract source).value) (hlt : a.start < x.length) :
    a.stop ≤ x.length := by
  refine Nat.le_of_not_lt fun hstop => ?_
  have : covers (extract source).value (x.length - 1) = true :=
    covers_iff.mpr ⟨a, ha, by omega, by omega⟩
  rw [hcov] at this
  exact nomatch this

/-- A word character stays where it is, since no annotation begins with one. -/
theorem head_any_isWord_of_remainder (hsource : source = x ++ z)
    (hcov : covers (extract source).value (x.length - 1) = false)
    (hword : (remainder source x.length z).head?.any isWord = false) :
    z.head?.any isWord = false := by
  cases z with
  | nil => rfl
  | cons c z =>
    rw [List.head?_cons, Option.any_some]
    refine Bool.eq_false_iff.mpr fun hc => ?_
    have hat : c ≠ '@' := fun h => absurd (h ▸ hc) (by decide)
    have hkeep := outside_append_of_no_at (laid_extract source) (w := [c]) (z := z) hsource
      (fun a ha => stop_le_of_not_covers hcov ha) (by simpa using hat)
    rw [remainder, ← List.singleton_append, hkeep] at hword
    simp [hc] at hword

/-- Room for a block behind an opening word was there before the removals. -/
theorem opensBlock_of_remainder (hsource : source = x ++ z)
    (hcov : covers (extract source).value (x.length - 1) = false)
    (h : OpensBlock (remainder source x.length z)) : OpensBlock z := by
  refine ⟨head_any_isWord_of_remainder hsource hcov h.1, fun hparen => h.2 ?_⟩
  obtain ⟨blanks, hz, hspacing⟩ := exists_spacing z
  obtain ⟨inner, hinner⟩ : ∃ inner, dropSpaces z = '(' :: inner := List.head?_eq_some_iff.mp hparen
  have hcut : z = (blanks ++ ['(']) ++ inner := by
    rw [hz, hinner, List.append_assoc, List.singleton_append]
  have hkeep := outside_append_of_no_at (laid_extract source) (w := blanks ++ ['(']) (z := inner)
    (by rw [hsource, hcut]) (fun a ha => stop_le_of_not_covers hcov ha) (by
      intro c hc
      rcases List.mem_append.mp hc with hc | hc
      · rcases hspacing c hc with rfl | rfl <;> decide
      · obtain rfl := List.mem_singleton.mp hc
        decide)
  have hdrop : dropSpaces (blanks ++ '(' :: outside (extract source).value
      (x.length + (blanks ++ ['(']).length) inner)
      = '(' :: outside (extract source).value (x.length + (blanks ++ ['(']).length) inner := by
    rw [dropSpaces, List.dropWhile_append_of_pos fun c hc => by simpa using hspacing c hc]
    rfl
  rw [remainder, hcut, hkeep, List.append_assoc, List.singleton_append, hdrop]
  rfl

/-- A closing word outside the annotations stood in the template. -/
theorem closesAt_of_remainder {before after : Text} (hsource : source = x ++ z)
    (h : ClosesAt before after (remainder source x.length z)) :
    ∃ before' after', ClosesAt before' after' z := by
  obtain ⟨hcat, hword⟩ := h
  rw [List.append_assoc] at hcat
  obtain ⟨w, y, rfl, hcov, _, hout⟩ :=
    exists_cut_of_outside (List.append_ne_nil_of_left_ne_nil (by decide) after) hcat
  have hlen : (x ++ w).length = x.length + w.length := List.length_append
  rw [← hlen] at hcov hout
  obtain ⟨after', rfl, hafter, hlast⟩ := glued_of_outside (laid_extract source)
    (by rw [hsource, List.append_assoc]) hcov (by decide) mayFollow_of_mem_blockCloser hout.symm
  refine ⟨w, after', by rw [List.append_assoc], ?_⟩
  have hlen' : (x ++ w).length + blockCloser.length = (x ++ w ++ blockCloser).length :=
    List.length_append.symm
  rw [hlen'] at hafter hlast
  rw [hafter] at hword
  exact head_any_isWord_of_remainder (by rw [hsource]; simp) hlast hword

/-- An opening word of the template that is left behind does not open a block: with the
closing word it now meets it would have been one before. -/
theorem not_block_of_mayFollow {y : Text} (n : Nat) (h : Stray source x y)
    (hmay : mayFollow x.getLast? = true) : blockHere? n (remainder source x.length y) = none := by
  cases hblock : blockHere? n (remainder source x.length y) with
  | none => rfl
  | some a =>
    obtain ⟨after, _, htext, hrest, hword, _, hopens, _⟩ := blockHere?_eq_some hblock
    rw [htext, List.append_assoc, List.append_assoc, ← List.append_assoc a.body] at hrest
    obtain ⟨z, rfl, hz, hlast⟩ := glued_of_outside (laid_extract source) h.cut h.uncovered
      (by decide) mayFollow_of_mem_opener hrest
    have hlen : x.length + opener.length = (x ++ opener).length := List.length_append.symm
    rw [hlen] at hz hlast
    have hsource : source = (x ++ opener) ++ z := by rw [h.cut, List.append_assoc]
    have hclosed : ClosesAt a.body after (remainder source (x ++ opener).length z) :=
      ⟨hz.symm, hword⟩
    obtain ⟨before', after', hcloses⟩ := closesAt_of_remainder hsource hclosed
    rw [hz] at hopens
    have hroom : OpensBlock z := opensBlock_of_remainder hsource hlast hopens
    -- so the scan found a block here, which covers the word
    obtain ⟨b, hb⟩ := Option.isSome_iff_exists.mp (blockHere?_isSome x.length hroom hcloses)
    obtain hlt | ⟨e, he, hspan⟩ :=
      scanFrom_covers blockHere?_findsPieces source [] 0 x (opener ++ z) h.cut hmay hb
    · exact absurd hlt (Nat.not_lt_zero _)
    · have hcov : covers (extract source).value x.length = true :=
        covers_iff.mpr ⟨e, mem_extract.mpr (.inl he), hspan⟩
      rw [h.uncovered] at hcov
      exact nomatch hcov

end blocks

/-! ## 4. The exact condition -/

/-- **What stripping leaves behind**: the stripped template is free of annotations exactly
if the text that is left behind each stray word begins with no parameter list and, where the
word stands directly behind a removed block, with no block either. -/
theorem extract_stripped_eq_nil_iff (source : Text) :
    (extract (stripped source)).value = [] ↔ ∀ x y, Stray source x y →
      expressionHere? 0 (remainder source x.length y) = none ∧
      (BehindBlock source x → blockHere? 0 (remainder source x.length y) = none) := by
  rw [extract_eq_nil_iff]
  constructor
  · intro h x y hstray
    obtain ⟨he, hb⟩ := h _ _ (stripped_eq_append hstray.cut) hstray.mayFollow_remainder
    exact ⟨(expressionHere?_eq_none_iff _ _ _).mp he, fun _ => (blockHere?_eq_none_iff _ _ _).mp hb⟩
  · intro h u v hcut hmay
    rw [stripped_eq_remainder] at hcut
    -- what either test finds begins with the opening word, which is a stray word
    have hstray : ∀ w, v = opener ++ w →
        ∃ x y, Stray source x y ∧ v = remainder source x.length y := by
      intro w hw
      obtain ⟨x, y, hsource, hcov, rfl, hv⟩ :=
        exists_cut_of_outside (hw ▸ List.append_ne_nil_of_left_ne_nil (by decide) w) hcut
      rw [Nat.zero_add] at hcov hv
      exact ⟨x, y, stray_of_opener hsource hcov hmay (hv.symm.trans hw), hv⟩
    constructor
    · cases he : expressionHere? u.length v with
      | none => rfl
      | some a =>
        obtain ⟨blanks, after, _, _, htext, hv, _⟩ := expressionHere?_eq_some he
        obtain ⟨x, y, hxy, rfl⟩ := hstray _ (by rw [hv, htext, List.append_assoc, List.append_assoc,
          List.append_assoc])
        rw [(expressionHere?_eq_none_iff _ _ _).mp (h x y hxy).1] at he
        exact nomatch he
    · cases hb : blockHere? u.length v with
      | none => rfl
      | some a =>
        obtain ⟨after, _, htext, hv, _⟩ := blockHere?_eq_some hb
        obtain ⟨x, y, hxy, rfl⟩ :=
          hstray _ (by rw [hv, htext, List.append_assoc, List.append_assoc])
        rcases hxy.before with hbefore | hbehind
        · rw [not_block_of_mayFollow _ hxy hbefore] at hb
          exact nomatch hb
        · rw [(blockHere?_eq_none_iff _ _ _).mp ((h x y hxy).2 hbehind)] at hb
          exact nomatch hb

/-! ## 5. Stripping again -/

/-- Stripping shortens a template that has annotations. -/
theorem length_stripped_lt {source : Text} (h : (extract source).value ≠ []) :
    (stripped source).length < source.length := by
  obtain ⟨a, ha⟩ := List.exists_mem_of_ne_nil _ h
  have hplaced := (laid_extract source).placed a ha
  have hlt := hplaced.start_lt_stop
  have hle := hplaced.stop_le_length
  -- the first character of an annotation is gone
  obtain ⟨x, c, y, hsource, hlen⟩ : ∃ x c y, source = x ++ c :: y ∧ x.length = a.start := by
    refine ⟨source.take a.start, source[a.start], source.drop (a.start + 1), ?_, ?_⟩
    · rw [← List.drop_eq_getElem_cons, List.take_append_drop]
    · rw [List.length_take]
      omega
  have hcov : covers (extract source).value x.length = true :=
    covers_iff.mpr ⟨a, ha, by omega, by omega⟩
  have hx := outside_length_le (extract source).value 0 x
  have hy := outside_length_le (extract source).value (x.length + 1) y
  have hlength := congrArg List.length hsource
  rw [List.length_append, List.length_cons] at hlength
  rw [stripped_eq_append hsource, remainder, remainder, outside_cons_of_covers hcov,
    List.length_append]
  omega

/-- Stripping leaves a template as it is exactly if there is nothing to strip. -/
theorem stripped_eq_self_iff (source : Text) :
    stripped source = source ↔ (extract source).value = [] := by
  constructor
  · intro h
    by_contra hne
    have := length_stripped_lt hne
    rw [h] at this
    omega
  · intro h
    rw [stripped_eq_remainder, remainder, h, outside_nil]

/-- **Disabled mode**: the compilation goes through and takes the annotations out. What
is left is free of annotations exactly if the text behind each stray word begins with no
parameter list and, directly behind a removed block, with no block either; and exactly
then compiling once more changes nothing. -/
theorem stripping_clean_iff (raw : Bool) (δ : Delimiters) (source : Text) :
    (compile { enabled := false, allowRawCode := raw } δ source).value = .ok (stripped source) ∧
      ((extract (stripped source)).value = [] ↔ ∀ x y, Stray source x y →
        expressionHere? 0 (remainder source x.length y) = none ∧
        (BehindBlock source x → blockHere? 0 (remainder source x.length y) = none)) ∧
      ((compile { enabled := false, allowRawCode := raw } δ (stripped source)).value
          = .ok (stripped source) ↔ (extract (stripped source)).value = []) := by
  refine ⟨compile_disabled rfl δ source, extract_stripped_eq_nil_iff source, ?_⟩
  rw [compile_disabled rfl, Except.ok.injEq]
  exact stripped_eq_self_iff (stripped source)

/-- An opening word without a parenthesis finds one when the annotation behind it is gone. -/
theorem stripping_not_clean :
    (compile { enabled := false } {} "@expects @expects()()".toList).value
        = .ok "@expects ()".toList ∧
      (extract "@expects ()".toList).value ≠ [] ∧
      (compile { enabled := false } {} "@expects ()".toList).value
        ≠ .ok "@expects ()".toList := by
  decide +kernel

end ViewContract.Annotation
