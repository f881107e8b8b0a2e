/-
ViewContract.Proofs.Text.Breaks — line breaks of the three usual forms.

A line ends at a line feed, at a carriage return, or at both in a row. Where every break is made
a line feed first, as many line feeds come out as there were breaks (`lineFeeds_unifyLineFeeds`);
where only the line feeds are counted, the carriage returns that stand alone are missing
(`lineFeeds_add_loneReturns`). A place between two characters of the unified text is a place of
the text itself (`exists_cut_of_unifyLineFeeds`), so both counts are about the same places.
-/
import ViewContract.Text.Lines

namespace ViewContract.Text

/-! ## 1. Counts -/

/-- How many line breaks a text holds: line feeds, carriage returns, and pairs of both. -/
def lineBreaks : Text → Nat
  | [] => 0
  | '\r' :: '\n' :: rest => lineBreaks rest + 1
  | c :: rest => lineBreaks rest + if c = '\r' || c = '\n' then 1 else 0

/-- How many carriage returns of a text have no line feed behind them. -/
def loneReturns : Text → Nat
  | [] => 0
  | '\r' :: '\n' :: rest => loneReturns rest
  | c :: rest => loneReturns rest + if c = '\r' then 1 else 0

/-- The line of an offset: one more than the line breaks before it. -/
def lineAt (source : Text) (offset : Nat) : Nat :=
  lineBreaks (source.take offset) + 1

theorem unifyLineFeeds_pair (rest : Text) :
    unifyLineFeeds ('\r' :: '\n' :: rest) = '\n' :: unifyLineFeeds rest := by
  simp [unifyLineFeeds, mergeReturns]

theorem unifyLineFeeds_single {c : Char} {rest : Text}
    (hpair : ∀ others, c = '\r' → rest = '\n' :: others → False) :
    unifyLineFeeds (c :: rest) = (if c = '\r' then '\n' else c) :: unifyLineFeeds rest := by
  rw [unifyLineFeeds, mergeReturns.eq_3 _ _ hpair, List.map_cons, unifyLineFeeds]

/-- Unified, a text has a line feed for each of its line breaks. -/
theorem lineFeeds_unifyLineFeeds (t : Text) : lineFeeds (unifyLineFeeds t) = lineBreaks t := by
  induction t using mergeReturns.induct with
  | case1 => rfl
  | case2 rest ih =>
    rw [unifyLineFeeds_pair, lineBreaks, ← ih]
    simp [lineFeeds]
  | case3 c rest hpair ih =>
    rw [unifyLineFeeds_single hpair, lineBreaks.eq_3 _ _ hpair, ← ih]
    by_cases hreturn : c = '\r'
    · simp [lineFeeds, hreturn]
    · by_cases hfeed : c = '\n' <;> simp [lineFeeds, hreturn, hfeed]

/-- The line breaks are the line feeds, and the carriage returns that stand alone. -/
theorem lineFeeds_add_loneReturns (t : Text) : lineFeeds t + loneReturns t = lineBreaks t := by
  induction t using mergeReturns.induct with
  | case1 => rfl
  | case2 rest ih =>
    rw [loneReturns, lineBreaks, ← ih]
    simp [lineFeeds]
    omega
  | case3 c rest hpair ih =>
    rw [loneReturns.eq_3 _ _ hpair, lineBreaks.eq_3 _ _ hpair, ← ih]
    by_cases hreturn : c = '\r'
    · simp [lineFeeds, hreturn]
      omega
    · by_cases hfeed : c = '\n'
      · simp [lineFeeds, hfeed]
        omega
      · simp [lineFeeds, hreturn, hfeed]

/-- No carriage return stands alone exactly if a line feed follows each. -/
theorem loneReturns_eq_zero_iff (t : Text) : loneReturns t = 0 ↔
    ∀ before after, t = before ++ '\r' :: after → after.head? = some '\n' := by
  induction t using mergeReturns.induct with
  | case1 => simp [loneReturns]
  | case2 rest ih =>
    rw [loneReturns, ih]
    constructor
    · intro h before after hcut
      rcases before with - | ⟨c, - | ⟨d, before⟩⟩
      · simp at hcut
        simp [← hcut]
      · simp at hcut
      · simp at hcut
        exact h before after hcut.2.2
    · intro h before after hcut
      exact h ('\r' :: '\n' :: before) after (by simp [hcut])
  | case3 c rest hpair ih =>
    rw [loneReturns.eq_3 _ _ hpair]
    by_cases hreturn : c = '\r'
    · -- the first character stands alone, and what follows it is no line feed
      refine iff_of_false (by simp [hreturn]) fun h => ?_
      obtain ⟨others, hrest⟩ := List.head?_eq_some_iff.mp (h [] rest (by rw [hreturn]; rfl))
      exact hpair others hreturn hrest
    · rw [if_neg hreturn, Nat.add_zero, ih]
      constructor
      · intro h before after hcut
        cases before with
        | nil => exact absurd (List.cons.inj hcut).1 hreturn
        | cons d before => exact h before after (List.cons.inj hcut).2
      · intro h before after hcut
        exact h (c :: before) after (by simp [hcut])

/-! ## 2. Places -/

/-- A place in the unified text is a place in the text. -/
theorem exists_cut_of_unifyLineFeeds {t x y : Text} (h : unifyLineFeeds t = x ++ y) :
    ∃ before after, t = before ++ after ∧ unifyLineFeeds before = x ∧ unifyLineFeeds after = y := by
  induction t using mergeReturns.induct generalizing x with
  | case1 =>
    obtain ⟨rfl, rfl⟩ := List.append_eq_nil_iff.mp h.symm
    exact ⟨[], [], rfl, rfl, rfl⟩
  | case2 rest ih =>
    rw [unifyLineFeeds_pair] at h
    cases x with
    | nil => exact ⟨[], '\r' :: '\n' :: rest, rfl, rfl, (unifyLineFeeds_pair rest).trans h⟩
    | cons d x =>
      obtain ⟨rfl, hrest⟩ := List.cons.inj h
      obtain ⟨before, after, rfl, rfl, rfl⟩ := ih hrest
      exact ⟨'\r' :: '\n' :: before, after, rfl, unifyLineFeeds_pair before, rfl⟩
  | case3 c rest hpair ih =>
    cases x with
    | nil => exact ⟨[], c :: rest, rfl, rfl, h⟩
    | cons d x =>
      rw [unifyLineFeeds_single hpair] at h
      obtain ⟨rfl, hrest⟩ := List.cons.inj h
      obtain ⟨before, after, rfl, rfl, rfl⟩ := ih hrest
      refine ⟨c :: before, after, rfl, unifyLineFeeds_single fun others hc hbefore => ?_, rfl⟩
      exact hpair (others ++ after) hc (by rw [hbefore, List.cons_append])

/-- What begins the unified text and is no line feed begins the text. -/
theorem head_of_unifyLineFeeds {c : Char} {t rest : Text} (hc : c ≠ '\n')
    (h : unifyLineFeeds t = c :: rest) : ∃ after, t = c :: after ∧ unifyLineFeeds after = rest := by
  cases t using mergeReturns.fun_cases with
  | case1 => cases h
  | case2 after =>
    rw [unifyLineFeeds_pair] at h
    exact absurd (List.cons.inj h).1.symm hc
  | case3 d after hpair =>
    rw [unifyLineFeeds_single hpair] at h
    obtain ⟨hd, hafter⟩ := List.cons.inj h
    by_cases hreturn : d = '\r'
    · rw [if_pos hreturn] at hd
      exact absurd hd.symm hc
    · rw [if_neg hreturn] at hd
      exact ⟨after, by rw [hd], hafter⟩

end ViewContract.Text
