/-
ViewContract.Proofs.Text.Lines — lines put together and taken apart.

  §1 lines joined by line feeds are the lines of the whole (`lines_intercalate`), if none is empty
     and none has a line break inside. An empty last line would be lost.
  §2 two texts joined by a line feed have the lines of both, whatever line breaks are in them and
     at their seam (`lines_join`).
  §3 two texts joined by another character have the lines of both, but for the line on which they
     meet (`exists_lines_meet`).
-/
import ViewContract.Text.Blank
import ViewContract.Text.Lines

namespace ViewContract.Text

/-! ## 1. Lines put together -/

/-- What ends a line is blank. -/
theorem not_isLineBreak_of_not_blank {c : Char} (h : isBlank c = false) :
    isLineBreak c = false := by
  refine Bool.eq_false_iff.mpr fun hbreak => ?_
  simp only [isLineBreak, Bool.or_eq_true, decide_eq_true_eq, or_assoc] at hbreak
  rcases hbreak with rfl | rfl | rfl | rfl | rfl | rfl | rfl | rfl | rfl | rfl <;>
    exact absurd h (by decide)

theorem mergeReturns_eq_self {t : Text} (h : '\r' ∉ t) : mergeReturns t = t := by
  induction t with
  | nil => rfl
  | cons c t ih =>
    rw [List.mem_cons, not_or] at h
    rw [mergeReturns.eq_3 _ _ fun _ hc _ => h.1 hc.symm, ih h.2]

theorem linesFrom_append {piece line rest : Text} (hpiece : ∀ c ∈ piece, isLineBreak c = false) :
    linesFrom line (piece ++ rest) = linesFrom (piece.reverse ++ line) rest := by
  induction piece generalizing line with
  | nil => rfl
  | cons c piece ih =>
    have hc : isLineBreak c = false := hpiece c List.mem_cons_self
    have hlater := @ih (c :: line) fun d hd => hpiece d (List.mem_cons_of_mem c hd)
    rw [List.cons_append, linesFrom, if_neg (by rw [hc]; exact Bool.false_ne_true), hlater,
      List.reverse_cons, List.append_assoc, List.singleton_append]

theorem mem_of_mem_intercalate {c : Char} {separator : Text} {ls : List Text}
    (h : c ∈ separator.intercalate ls) : c ∈ separator ∨ ∃ l ∈ ls, c ∈ l := by
  induction ls with
  | nil => exact absurd h List.not_mem_nil
  | cons l ls ih =>
    cases ls with
    | nil =>
      rw [List.intercalate_singleton] at h
      exact .inr ⟨l, List.mem_cons_self, h⟩
    | cons l' ls =>
      rw [List.intercalate_cons_cons, List.append_assoc, List.mem_append, List.mem_append] at h
      rcases h with h | h | h
      · exact .inr ⟨l, List.mem_cons_self, h⟩
      · exact .inl h
      · exact (ih h).imp_right fun ⟨k, hk, hc⟩ => ⟨k, List.mem_cons_of_mem l hk, hc⟩

/-- Lines with line feeds between them are the lines of the whole. -/
theorem lines_intercalate {ls : List Text}
    (hls : ∀ l ∈ ls, l ≠ [] ∧ ∀ c ∈ l, isLineBreak c = false) :
    lines (['\n'].intercalate ls) = ls := by
  have hreturn : '\r' ∉ ['\n'].intercalate ls := by
    intro hmem
    rcases mem_of_mem_intercalate hmem with hfeed | ⟨l, hl, hmem⟩
    · exact absurd hfeed (by decide)
    · exact absurd ((hls l hl).2 '\r' hmem) (by decide)
  rw [lines, mergeReturns_eq_self hreturn]
  clear hreturn
  induction ls with
  | nil => rfl
  | cons l ls ih =>
    obtain ⟨hne, hl⟩ := hls l List.mem_cons_self
    have hnonempty : (l.reverse ++ []).isEmpty = false := by simpa using hne
    cases ls with
    | nil =>
      have h := @linesFrom_append l [] [] hl
      rw [List.append_nil] at h
      rw [List.intercalate_singleton, h, linesFrom, hnonempty]
      simp
    | cons l' ls =>
      have hlater := ih fun k hk => hls k (List.mem_cons_of_mem l hk)
      rw [List.intercalate_cons_cons, List.append_assoc, linesFrom_append hl, List.singleton_append,
        linesFrom, if_pos (by decide), hlater]
      simp

/-! ## 2. Texts put together -/

/-- A line feed between two texts goes together with a carriage return at the end of the first. -/
theorem exists_mergeReturns_append (t rest : Text) : ∃ before,
    (mergeReturns t = before ∨ mergeReturns t = before ++ ['\r']) ∧
      mergeReturns (t ++ '\n' :: rest) = before ++ '\n' :: mergeReturns rest := by
  induction t using mergeReturns.induct with
  | case1 => exact ⟨[], .inl rfl, mergeReturns.eq_3 _ _ (by simp)⟩
  | case2 t ih =>
    obtain ⟨before, hmerge, happend⟩ := ih
    refine ⟨'\n' :: before, ?_, congrArg ('\n' :: ·) happend⟩
    exact hmerge.imp (congrArg ('\n' :: ·)) (congrArg ('\n' :: ·))
  | case3 c t hpair ih =>
    obtain ⟨before, hmerge, happend⟩ := ih
    cases t with
    | nil =>
      by_cases hc : c = '\r'
      · subst hc
        exact ⟨[], .inr rfl, rfl⟩
      · refine ⟨[c], .inl ?_, ?_⟩
        · exact mergeReturns_eq_self (by simpa using Ne.symm hc)
        · rw [List.singleton_append, mergeReturns.eq_3 _ _ fun _ h _ => hc h,
            mergeReturns.eq_3 _ _ (by simp)]
          rfl
    | cons d t =>
      refine ⟨c :: before, ?_, ?_⟩
      · rw [mergeReturns.eq_3 _ _ hpair]
        exact hmerge.imp (congrArg (c :: ·)) (congrArg (c :: ·))
      · have hpair' : ∀ w, c = '\r' → d :: (t ++ '\n' :: rest) = '\n' :: w → False := by
          intro w hc hd
          exact hpair t hc (by rw [(List.cons.inj hd).1])
        rw [List.cons_append, List.cons_append, mergeReturns.eq_3 _ _ hpair',
          ← List.cons_append, happend]
        rfl

/-- A line break ends the line in front of it, which is there even if it is empty. -/
theorem exists_linesFrom_break (line t : Text) : ∃ ls : List Text,
    (linesFrom line t = ls ∨ ls = linesFrom line t ++ [[]]) ∧
      ∀ c rest, isLineBreak c = true →
        linesFrom line (t ++ c :: rest) = ls ++ linesFrom [] rest := by
  induction t generalizing line with
  | nil =>
    refine ⟨[line.reverse], ?_, fun c rest hc => by rw [List.nil_append, linesFrom, if_pos hc]; rfl⟩
    cases line with
    | nil => exact .inr rfl
    | cons d line => exact .inl rfl
  | cons d t ih =>
    by_cases hd : isLineBreak d = true
    · obtain ⟨ls, hls, hbreak⟩ := ih []
      refine ⟨line.reverse :: ls, ?_, fun c rest hc => ?_⟩
      · rw [linesFrom, if_pos hd]
        exact hls.imp (congrArg (line.reverse :: ·)) (congrArg (line.reverse :: ·))
      · rw [List.cons_append, linesFrom, if_pos hd, hbreak c rest hc]
        rfl
    · obtain ⟨ls, hls, hbreak⟩ := ih (d :: line)
      refine ⟨ls, ?_, fun c rest hc => ?_⟩
      · rwa [linesFrom, if_neg hd]
      · rw [List.cons_append, linesFrom, if_neg hd, hbreak c rest hc]

/-- Two texts with a line feed between them have the lines of both. There may be an empty line
between: a break at the end of the first text opens no line there. -/
theorem lines_join (t rest : Text) :
    lines (t ++ '\n' :: rest) = lines t ++ lines rest ∨
      lines (t ++ '\n' :: rest) = lines t ++ [] :: lines rest := by
  obtain ⟨before, hmerge, happend⟩ := exists_mergeReturns_append t rest
  obtain ⟨ls, hls, hbreak⟩ := exists_linesFrom_break [] before
  have hwhole : lines (t ++ '\n' :: rest) = ls ++ lines rest := by
    rw [lines, happend, hbreak '\n' _ (by decide)]
    rfl
  rw [hwhole]
  rcases hmerge with hmerge | hmerge
  · have ht : linesFrom [] before = lines t := by rw [lines, hmerge]
    rw [ht] at hls
    rcases hls with rfl | rfl
    · exact .inl rfl
    · exact .inr (by rw [List.append_assoc]; rfl)
  · have ht : lines t = ls := by
      rw [lines, hmerge, hbreak '\r' [] (by decide)]
      exact List.append_nil ls
    exact .inl (by rw [ht])

/-- A text without a line break is one line, if it is not empty. -/
theorem lines_of_forall {t : Text} (h : ∀ c ∈ t, isLineBreak c = false) :
    lines t = if t = [] then [] else [t] := by
  split
  · rename_i hnone
    rw [hnone]
    rfl
  · rename_i hsome
    have hline := @lines_intercalate [t] (List.forall_mem_singleton.mpr ⟨hsome, h⟩)
    rwa [List.intercalate_singleton] at hline

/-! ## 3. A line on which two texts meet -/

/-- Two texts are merged apart, unless a line feed opens the second. -/
theorem mergeReturns_append {t : Text} (ht : t.head? ≠ some '\n') (u : Text) :
    mergeReturns (u ++ t) = mergeReturns u ++ mergeReturns t := by
  induction u using mergeReturns.induct with
  | case1 => rfl
  | case2 rest ih =>
    rw [List.cons_append, List.cons_append, mergeReturns, ih, mergeReturns, List.cons_append]
  | case3 c rest hpair ih =>
    have hpair' : ∀ others, c = '\r' → rest ++ t = '\n' :: others → False := by
      intro others hc hrest
      cases rest with
      | nil =>
        rw [List.nil_append] at hrest
        exact ht (by rw [hrest]; rfl)
      | cons d rest =>
        obtain ⟨rfl, -⟩ := List.cons.inj hrest
        exact hpair rest hc rfl
    rw [List.cons_append, mergeReturns.eq_3 _ _ hpair', ih, mergeReturns.eq_3 _ _ hpair,
      List.cons_append]

theorem mergeReturns_cons {c : Char} (hc : c ≠ '\r') (t : Text) :
    mergeReturns (c :: t) = c :: mergeReturns t :=
  mergeReturns.eq_3 _ _ fun _ h _ => hc h

theorem eq_of_not_mem_mergeReturns {t : Text} (h : '\n' ∉ mergeReturns t) : mergeReturns t = t := by
  induction t using mergeReturns.induct with
  | case1 => rfl
  | case2 => exact absurd List.mem_cons_self h
  | case3 c t hpair ih =>
    rw [mergeReturns.eq_3 _ _ hpair] at h ⊢
    rw [ih fun hmem => h (List.mem_cons_of_mem c hmem)]

theorem isPrefix_of_mergeReturns {line t : Text} (h : line <+: mergeReturns t)
    (hfeed : '\n' ∉ line) : line <+: t := by
  induction t using mergeReturns.induct generalizing line with
  | case1 => exact h
  | case2 t ih =>
    rcases List.prefix_cons_iff.mp h with rfl | ⟨rest, rfl, -⟩
    · exact List.nil_prefix
    · exact absurd List.mem_cons_self hfeed
  | case3 c t hpair ih =>
    rw [mergeReturns.eq_3 _ _ hpair] at h
    rcases List.prefix_cons_iff.mp h with rfl | ⟨rest, rfl, hrest⟩
    · exact List.nil_prefix
    · exact List.cons_prefix_cons.mpr
        ⟨rfl, ih hrest fun hmem => hfeed (List.mem_cons_of_mem c hmem)⟩

theorem isSuffix_of_mergeReturns {line t : Text} (h : line <:+ mergeReturns t)
    (hfeed : '\n' ∉ line) : line <:+ t := by
  induction t using mergeReturns.induct with
  | case1 => exact h
  | case2 t ih =>
    rcases List.suffix_cons_iff.mp h with rfl | h
    · exact absurd List.mem_cons_self hfeed
    · exact ((ih h).trans (List.suffix_cons _ t)).trans (List.suffix_cons _ _)
  | case3 c t hpair ih =>
    rw [mergeReturns.eq_3 _ _ hpair] at h
    rcases List.suffix_cons_iff.mp h with rfl | h
    · have hsame := eq_of_not_mem_mergeReturns fun hmem => hfeed (List.mem_cons_of_mem c hmem)
      exact ⟨[], congrArg (c :: ·) hsame⟩
    · exact (ih h).trans (List.suffix_cons c t)

/-- Behind a text the reader is in its last line, which the text ends with. -/
theorem exists_linesFrom_append (t : Text) {line : Text}
    (hline : ∀ c ∈ line, isLineBreak c = false) :
    ∃ ls last, last <:+ line.reverse ++ t ∧ (∀ c ∈ last, isLineBreak c = false) ∧
      (∀ c, (line.reverse ++ t).getLast? = some c → isLineBreak c = false → last ≠ []) ∧
      ∀ rest, linesFrom line (t ++ rest) = ls ++ linesFrom last.reverse rest := by
  induction t generalizing line with
  | nil =>
    refine ⟨[], line.reverse, ⟨[], by simp⟩, ?_, ?_, ?_⟩
    · intro c hc
      exact hline c (List.mem_reverse.mp hc)
    · rintro c hlast - hnil
      rw [hnil] at hlast
      cases hlast
    · intro rest
      rw [List.reverse_reverse]
      rfl
  | cons d t ih =>
    by_cases hd : isLineBreak d = true
    · obtain ⟨ls, last, hsuffix, hplain, hne, hlater⟩ := @ih [] nofun
      refine ⟨line.reverse :: ls, last, ?_, hplain, ?_, ?_⟩
      · exact (hsuffix.trans (List.suffix_cons d t)).trans (List.suffix_append _ _)
      · intro c hlast hc
        refine hne c ?_ hc
        cases t with
        | nil =>
          rw [List.getLast?_concat] at hlast
          rw [← Option.some.inj hlast, hd] at hc
          cases hc
        | cons e t => rwa [List.getLast?_append, List.getLast?_cons_cons, List.getLast?_cons,
            Option.some_or, ← List.getLast?_cons] at hlast
      · intro rest
        rw [List.cons_append, linesFrom, if_pos hd, hlater]
        rfl
    · have hline' : ∀ c ∈ d :: line, isLineBreak c = false :=
        List.forall_mem_cons.mpr ⟨by simpa using hd, hline⟩
      have hsame : (d :: line).reverse ++ t = line.reverse ++ d :: t := by simp
      obtain ⟨ls, last, hsuffix, hplain, hne, hlater⟩ := ih hline'
      rw [hsame] at hsuffix hne
      refine ⟨ls, last, hsuffix, hplain, hne, ?_⟩
      intro rest
      rw [List.cons_append, linesFrom, if_neg hd, hlater]

/-- A line that has begun goes on up to the first break of a text. -/
theorem exists_linesFrom_line (t : Text) : ∃ rest more, rest <+: t ∧
    (∀ c ∈ rest, isLineBreak c = false) ∧
    ∀ line, line ≠ [] → linesFrom line t = (line.reverse ++ rest) :: more := by
  induction t with
  | nil =>
    refine ⟨[], [], List.nil_prefix, nofun, ?_⟩
    intro line hline
    rw [linesFrom, if_neg (by simpa using hline), List.append_nil]
  | cons d t ih =>
    by_cases hd : isLineBreak d = true
    · refine ⟨[], linesFrom [] t, List.nil_prefix, nofun, ?_⟩
      intro line _
      rw [linesFrom, if_pos hd, List.append_nil]
    · obtain ⟨rest, more, hprefix, hplain, hlater⟩ := ih
      refine ⟨d :: rest, more, List.cons_prefix_cons.mpr ⟨rfl, hprefix⟩,
        List.forall_mem_cons.mpr ⟨by simpa using hd, hplain⟩, ?_⟩
      intro line _
      rw [linesFrom, if_neg hd, hlater _ (List.cons_ne_nil d line)]
      simp

/-- Two texts with a character between them that breaks no line: the last line of the first goes on
with the first line of the second. -/
theorem exists_lines_meet {before after : Text} {b c d : Char} (hlast : before.getLast? = some b)
    (hfirst : after.head? = some d) (hb : isLineBreak b = false) (hc : isLineBreak c = false)
    (hd : isLineBreak d = false) :
    ∃ ls left right more, left ≠ [] ∧ left <:+ before ∧ right ≠ [] ∧ right <+: after ∧
      lines before = ls ++ [left] ∧ lines after = right :: more ∧
      lines (before ++ c :: after) = ls ++ (left ++ c :: right) :: more := by
  have hbreaks : ∀ e, isLineBreak e = false → e ≠ '\n' ∧ e ≠ '\r' := by
    intro e he
    constructor <;> rintro rfl <;> exact absurd he (by decide)
  have hfeed : ∀ t : Text, (∀ e ∈ t, isLineBreak e = false) → '\n' ∉ t := fun t ht hmem =>
    (hbreaks _ (ht _ hmem)).1 rfl
  obtain ⟨after, rfl⟩ := List.head?_eq_some_iff.mp hfirst
  obtain ⟨start, rfl⟩ := List.getLast?_eq_some_iff.mp hlast
  -- the end of the first text stays its end
  have hend : mergeReturns (start ++ [b]) = mergeReturns start ++ [b] := by
    rw [mergeReturns_append (by simpa using (hbreaks b hb).1), mergeReturns_cons (hbreaks b hb).2]
    rfl
  obtain ⟨ls, left, hsuffix, hleft, hne, hlater⟩ :=
    @exists_linesFrom_append (mergeReturns (start ++ [b])) [] nofun
  have hsome : left ≠ [] := by
    refine hne b ?_ hb
    rw [List.reverse_nil, List.nil_append, hend, List.getLast?_concat]
  obtain ⟨rest, more, hbegins, hrest, hline⟩ := exists_linesFrom_line (mergeReturns after)
  have hkept := isPrefix_of_mergeReturns hbegins (hfeed rest hrest)
  refine ⟨ls, left, d :: rest, more, hsome, isSuffix_of_mergeReturns hsuffix (hfeed left hleft),
    List.cons_ne_nil d rest,
    List.cons_prefix_cons.mpr ⟨rfl, hkept⟩, ?_, ?_, ?_⟩
  · have hnone := hlater []
    rw [List.append_nil] at hnone
    rw [lines, hnone, linesFrom, if_neg (by simpa using hsome), List.reverse_reverse]
  · rw [lines, mergeReturns_cons (hbreaks d hd).2, linesFrom, if_neg (by simp [hd]),
      hline [d] (List.cons_ne_nil d [])]
    rfl
  · rw [lines, mergeReturns_append (by simpa using (hbreaks c hc).1),
      mergeReturns_cons (hbreaks c hc).2, mergeReturns_cons (hbreaks d hd).2, hlater, linesFrom,
      if_neg (by simp [hc]), linesFrom, if_neg (by simp [hd]), hline _ (List.cons_ne_nil d _)]
    simp

end ViewContract.Text
