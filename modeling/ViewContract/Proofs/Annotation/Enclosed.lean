/-
ViewContract.Proofs.Annotation.Enclosed — what stands between the parentheses of a parameter list.

The scan for the closing parenthesis counts the open ones, except in quotes. What it passes over
is a text of a grammar without counts: quoted texts, pairs of parentheses around such a text, and
other characters (`Enclosed`).

  §1 the grammar, and where it has a line feed: only taken by a backslash.
  §2 one step of the scan.
  §3 a whole scan. It takes exactly the texts of the grammar (`closingLength?_eq_some_iff`).
  §4 the parameter list around such a text, in a template without another at sign.
  §5 bodies of tokens. A token has no backslash before a line feed, so a body that is more than one
     line is no row of tokens, and the lines of an annotation come down to its quoted texts
     (`lines_of_expression`).
-/
import ViewContract.Proofs.Annotation.Partition
import ViewContract.Proofs.Signature.Seam

namespace ViewContract.Annotation

open ViewContract.Text
open ViewContract.Signature (IsOrdinary Lexeme Spaced StringInterior)

/-! ## 1. The grammar -/

/-- A text that can stand between parentheses. The quotes of a quoted text are of one kind, it has
no line feed of its own, and `taken` says what a backslash may take in it. -/
inductive Enclosed (taken : Char → Prop) : Text → Prop where
  | nil : Enclosed taken []
  | char {c : Char} {t : Text} (hc : IsOrdinary c) (ht : Enclosed taken t) : Enclosed taken (c :: t)
  | quoted {quote : Char} {s t : Text} (hquote : IsQuote quote)
      (hs : Interior quote (· ≠ '\n') taken s) (ht : Enclosed taken t) :
      Enclosed taken (quote :: s ++ quote :: t)
  | nested {s t : Text} (hs : Enclosed taken s) (ht : Enclosed taken t) :
      Enclosed taken ('(' :: s ++ ')' :: t)

/-- Where a text has a line feed, a backslash stands before it. -/
def FeedsEscaped (t : Text) : Prop :=
  ∀ u v, t = u ++ '\n' :: v → u.getLast? = some '\\'

theorem feedsEscaped_of_not_mem {t : Text} (h : '\n' ∉ t) : FeedsEscaped t := by
  rintro u v rfl
  exact absurd (List.mem_append_right u List.mem_cons_self) h

theorem FeedsEscaped.append {s t : Text} (hs : FeedsEscaped s) (ht : FeedsEscaped t) :
    FeedsEscaped (s ++ t) := by
  intro u v h
  rcases List.append_eq_append_iff.mp h with ⟨w, rfl, hw⟩ | ⟨w, rfl, hw⟩
  · have hlast := ht w v hw
    rw [List.getLast?_append, hlast]
    rfl
  · cases w with
    | nil =>
      have hlast := ht [] v hw.symm
      cases hlast
    | cons c w =>
      obtain ⟨rfl, -⟩ := List.cons.inj hw
      exact hs u w rfl

theorem FeedsEscaped.cons {c : Char} {t : Text} (hc : c ≠ '\n') (ht : FeedsEscaped t) :
    FeedsEscaped (c :: t) :=
  (feedsEscaped_of_not_mem (by simpa using hc.symm) : FeedsEscaped [c]).append ht

theorem feedsEscaped_of_interior {quote : Char} {taken : Char → Prop} {s : Text}
    (h : Interior quote (· ≠ '\n') taken s) : FeedsEscaped s := by
  induction h with
  | nil => exact feedsEscaped_of_not_mem List.not_mem_nil
  | char _ hfeed _ ih => exact ih.cons hfeed
  | @escape c t _ _ ih =>
    have hpair : FeedsEscaped ['\\', c] := by
      intro u v h
      cases u with
      | nil => exact absurd (List.cons.inj h).1 (by decide)
      | cons d u =>
        obtain ⟨rfl, hrest⟩ := List.cons.inj h
        cases u with
        | nil => rfl
        | cons e u => exact absurd (congrArg List.length hrest) (by simp)
    exact hpair.append ih

namespace Enclosed

variable {taken : Char → Prop} {t : Text}

theorem feedsEscaped (h : Enclosed taken t) : FeedsEscaped t := by
  induction h with
  | nil => exact feedsEscaped_of_not_mem List.not_mem_nil
  | char hc _ ih => exact ih.cons hc.ne.1
  | quoted hquote hs _ ih =>
    have hfeed := hquote.ne_feed
    exact ((feedsEscaped_of_interior hs).cons hfeed).append (ih.cons hfeed)
  | nested _ _ hs ht => exact (hs.cons (by decide)).append (ht.cons (by decide))

/-- Weaker rules on a text that has only some characters. -/
theorem mono {taken' : Char → Prop} (h : Enclosed taken t)
    (htaken : ∀ c ∈ t, taken c → taken' c) : Enclosed taken' t := by
  induction h with
  | nil => exact .nil
  | char hc _ ih => exact .char hc (ih fun c hmem => htaken c (List.mem_cons_of_mem _ hmem))
  | quoted hquote hs _ ih =>
    refine .quoted hquote (hs.mono (fun _ _ h => h) fun c hmem => htaken c ?_)
      (ih fun c hmem => htaken c ?_)
    · simp [hmem]
    · simp [hmem]
  | nested _ _ ihs iht =>
    refine .nested (ihs fun c hmem => htaken c ?_) (iht fun c hmem => htaken c ?_)
    · simp [hmem]
    · simp [hmem]

/-- Where a backslash takes no line feed there is none. -/
theorem not_feed_mem (h : Enclosed (· ≠ '\n') t) : '\n' ∉ t := by
  induction h with
  | nil => exact List.not_mem_nil
  | char hc _ ih => simpa [eq_comm, hc.ne.1] using ih
  | quoted hquote hs _ ih =>
    have hinside := hs.not_mem (fun h => h rfl) (fun h => h rfl) (by decide)
    simpa [hquote.ne_feed.symm, hinside] using ih
  | nested _ _ ihs iht => simp [ihs, iht]

end Enclosed

theorem enclosed_of_ordinary {taken : Char → Prop} {w t : Text} (hw : ∀ c ∈ w, IsOrdinary c)
    (ht : Enclosed taken t) : Enclosed taken (w ++ t) := by
  induction w with
  | nil => exact ht
  | cons c w ih =>
    exact .char (hw c List.mem_cons_self) (ih fun d hd => hw d (List.mem_cons_of_mem c hd))

/-! ## 2. One step of the scan -/

section step

variable {depth k : Nat} {c quote : Char} {t : Text}

theorem closingLength?_feed (quote : Option Char) (t : Text) :
    closingLength? depth quote ('\n' :: t) = none := by
  rw [closingLength?.eq_def]
  rfl

theorem closingLength?_ordinary (hc : IsOrdinary c) :
    closingLength? depth none (c :: t) = (closingLength? depth none t).map (· + 1) := by
  obtain ⟨hfeed, hsingle, hdouble, hopen, hclose⟩ := hc.ne
  simp [closingLength?, hfeed, hsingle, hdouble, hopen, hclose]

theorem closingLength?_quote (hquote : IsQuote quote) :
    closingLength? depth none (quote :: t)
      = (closingLength? depth (some quote) t).map (· + 1) := by
  rcases hquote with rfl | rfl <;> simp [closingLength?]

theorem closingLength?_opening :
    closingLength? depth none ('(' :: t) = (closingLength? (depth + 1) none t).map (· + 1) := by
  simp [closingLength?]

theorem closingLength?_last : closingLength? 1 none (')' :: t) = some 1 := by
  simp [closingLength?]

theorem closingLength?_closing :
    closingLength? (depth + 2) none (')' :: t)
      = (closingLength? (depth + 1) none t).map (· + 1) := by
  simp [closingLength?]

/-- Inside quotes only a backslash and the quote itself count. -/
theorem closingLength?_inside (hfeed : c ≠ '\n') (hslash : c ≠ '\\') :
    closingLength? depth (some quote) (c :: t)
      = (closingLength? depth (if c = quote then none else some quote) t).map (· + 1) := by
  rw [closingLength?.eq_def]
  simp [hfeed, hslash]

theorem closingLength?_escape :
    closingLength? depth (some quote) ('\\' :: c :: t)
      = (closingLength? depth (some quote) t).map (· + 2) := by
  rw [closingLength?.eq_def]
  simp

end step

/-! ## 3. A whole scan -/

/-- The scan passes over a quoted text. -/
theorem closingLength?_interior {depth : Nat} {quote : Char} (hquote : IsQuote quote)
    {taken : Char → Prop} {s : Text} (hs : Interior quote (· ≠ '\n') taken s) (t : Text) :
    closingLength? depth (some quote) (s ++ quote :: t)
      = (closingLength? depth none t).map (· + (s.length + 1)) := by
  induction hs with
  | nil =>
    rw [List.nil_append, closingLength?_inside hquote.ne_feed hquote.ne_backslash, if_pos rfl]
    rfl
  | char hc hfeed _ ih =>
    rw [List.cons_append, closingLength?_inside hfeed hc.2, if_neg hc.1, ih, Option.map_map]
    rfl
  | escape _ _ ih =>
    rw [List.cons_append, List.cons_append, closingLength?_escape, ih, Option.map_map]
    rfl

/-- The scan passes over a text of the grammar. -/
theorem closingLength?_enclosed {taken : Char → Prop} {s : Text} (hs : Enclosed taken s)
    (depth : Nat) (t : Text) : closingLength? (depth + 1) none (s ++ t)
      = (closingLength? (depth + 1) none t).map (· + s.length) := by
  induction hs generalizing depth t with
  | nil => simp
  | char hc _ ih =>
    rw [List.cons_append, closingLength?_ordinary hc, ih, Option.map_map]
    rfl
  | @quoted quote s s' hquote hs _ ih =>
    have hcut : quote :: s ++ quote :: s' ++ t = quote :: (s ++ quote :: (s' ++ t)) := by simp
    rw [hcut, closingLength?_quote hquote, closingLength?_interior hquote hs, ih, Option.map_map,
      Option.map_map]
    congr 1
    funext k
    simp
    omega
  | @nested s s' _ _ ihs iht =>
    have hcut : '(' :: s ++ ')' :: s' ++ t = '(' :: (s ++ ')' :: (s' ++ t)) := by simp
    rw [hcut, closingLength?_opening, ihs, closingLength?_closing, iht, Option.map_map,
      Option.map_map, Option.map_map]
    congr 1
    funext k
    simp
    omega

/-- What the scan passes over up to the end of a quoted text. -/
theorem exists_interior_of_closingLength? {depth : Nat} {quote : Char} : ∀ {t : Text} {k : Nat},
    closingLength? depth (some quote) t = some k →
    ∃ s rest j, t = s ++ quote :: rest ∧ Interior quote (· ≠ '\n') (fun _ => True) s ∧
      closingLength? depth none rest = some j ∧ k = s.length + 1 + j
  | [], _, h => nomatch h
  | c :: t, k, h => by
    by_cases hfeed : c = '\n'
    · rw [hfeed, closingLength?_feed] at h
      cases h
    · by_cases hslash : c = '\\'
      · subst hslash
        match t, h with
        | [], h => cases h
        | d :: t, h =>
          rw [closingLength?_escape] at h
          obtain ⟨k', hk', rfl⟩ := Option.map_eq_some_iff.mp h
          obtain ⟨s, rest, j, rfl, hs, hj, rfl⟩ := exists_interior_of_closingLength? hk'
          refine ⟨'\\' :: d :: s, rest, j, rfl, .escape trivial hs, hj, ?_⟩
          simp only [List.length_cons]
          omega
      · rw [closingLength?_inside hfeed hslash] at h
        obtain ⟨k', hk', rfl⟩ := Option.map_eq_some_iff.mp h
        by_cases hquote : c = quote
        · subst hquote
          rw [if_pos rfl] at hk'
          exact ⟨[], t, k', rfl, .nil, hk', by simp; omega⟩
        · rw [if_neg hquote] at hk'
          obtain ⟨s, rest, j, rfl, hs, hj, rfl⟩ := exists_interior_of_closingLength? hk'
          refine ⟨c :: s, rest, j, rfl, .char ⟨hquote, hslash⟩ hfeed hs, hj, ?_⟩
          simp only [List.length_cons]
          omega

/-- A text that closes some open parentheses, and has texts of the grammar before, between and
behind them. -/
def Closes : Nat → Text → Prop
  | 0, t => Enclosed (fun _ => True) t
  | depth + 1, t => ∃ s rest, t = s ++ ')' :: rest ∧ Enclosed (fun _ => True) s ∧ Closes depth rest

namespace Closes

variable {depth : Nat} {t : Text}

/-- What can stand in front of every text of the grammar can stand in front of this one. -/
theorem append_left {w : Text}
    (hw : ∀ s, Enclosed (fun _ => True) s → Enclosed (fun _ => True) (w ++ s))
    (h : Closes depth t) : Closes depth (w ++ t) := by
  cases depth with
  | zero => exact hw t h
  | succ depth =>
    obtain ⟨s, rest, rfl, hs, hrest⟩ := h
    exact ⟨w ++ s, rest, by rw [List.append_assoc], hw s hs, hrest⟩

theorem closing (h : Closes depth t) : Closes (depth + 1) (')' :: t) :=
  ⟨[], t, rfl, .nil, h⟩

theorem opening (h : Closes (depth + 1) t) : Closes depth ('(' :: t) := by
  obtain ⟨s, rest, rfl, hs, hrest⟩ := h
  have hcut : '(' :: (s ++ ')' :: rest) = '(' :: s ++ [')'] ++ rest := by simp
  rw [hcut]
  refine hrest.append_left fun s' hs' => ?_
  have hnested : Enclosed (fun _ => True) ('(' :: s ++ ')' :: s') := .nested hs hs'
  simpa using hnested

end Closes

/-- What the scan passes over up to the last parenthesis it has to close. The induction is on the
length, since a quoted text is passed over as a whole. -/
theorem closes_of_closingLength? {depth : Nat} {t : Text} {k : Nat}
    (h : closingLength? (depth + 1) none t = some k) :
    ∃ s rest, t = s ++ ')' :: rest ∧ k = s.length + 1 ∧ Closes depth s := by
  induction hn : t.length using Nat.strongRecOn generalizing depth t k with
  | ind n ih =>
    subst hn
    cases t with
    | nil => cases h
    | cons c t =>
      have hlater : ∀ {depth k}, closingLength? (depth + 1) none t = some k →
          ∃ s rest, t = s ++ ')' :: rest ∧ k = s.length + 1 ∧ Closes depth s :=
        fun h => ih t.length (Nat.lt_succ_self _) h rfl
      by_cases hordinary : IsOrdinary c
      · rw [closingLength?_ordinary hordinary] at h
        obtain ⟨j, hj, rfl⟩ := Option.map_eq_some_iff.mp h
        obtain ⟨s, rest, rfl, rfl, hs⟩ := hlater hj
        have hw : ∀ s, Enclosed (fun _ => True) s → Enclosed (fun _ => True) ([c] ++ s) :=
          fun _ => .char hordinary
        exact ⟨c :: s, rest, rfl, rfl, hs.append_left hw⟩
      · have hspecial : c = '\n' ∨ IsQuote c ∨ c = '(' ∨ c = ')' := by
          have hmem : c ∈ Signature.specials := not_not.mp hordinary
          simpa [Signature.specials, IsQuote, or_assoc] using hmem
        rcases hspecial with rfl | hquote | rfl | rfl
        · rw [closingLength?_feed] at h
          cases h
        · rw [closingLength?_quote hquote] at h
          obtain ⟨j, hj, rfl⟩ := Option.map_eq_some_iff.mp h
          obtain ⟨inside, behind, i, rfl, hinside, hi, rfl⟩ :=
            exists_interior_of_closingLength? hj
          have hlt : behind.length < (c :: (inside ++ c :: behind)).length := by
            simp
            omega
          obtain ⟨s, rest, rfl, rfl, hs⟩ := ih _ hlt hi rfl
          have hw : ∀ s, Enclosed (fun _ => True) s →
              Enclosed (fun _ => True) (c :: inside ++ [c] ++ s) := by
            intro s hs
            have hquoted : Enclosed (fun _ => True) (c :: inside ++ c :: s) :=
              .quoted hquote hinside hs
            simpa using hquoted
          refine ⟨c :: inside ++ [c] ++ s, rest, by simp, ?_, hs.append_left hw⟩
          simp
          omega
        · rw [closingLength?_opening] at h
          obtain ⟨j, hj, rfl⟩ := Option.map_eq_some_iff.mp h
          obtain ⟨s, rest, rfl, rfl, hs⟩ := hlater hj
          exact ⟨'(' :: s, rest, rfl, rfl, hs.opening⟩
        · cases depth with
          | zero =>
            rw [closingLength?_last] at h
            exact ⟨[], t, rfl, (Option.some.inj h).symm, .nil⟩
          | succ depth =>
            rw [closingLength?_closing] at h
            obtain ⟨j, hj, rfl⟩ := Option.map_eq_some_iff.mp h
            obtain ⟨s, rest, rfl, rfl, hs⟩ := hlater hj
            exact ⟨')' :: s, rest, rfl, rfl, hs.closing⟩

/-- The scan ends at a parenthesis exactly if a text of the grammar stands before it. -/
theorem closingLength?_eq_some_iff {t : Text} {k : Nat} :
    closingLength? 1 none t = some k ↔
      ∃ s rest, t = s ++ ')' :: rest ∧ k = s.length + 1 ∧ Enclosed (fun _ => True) s := by
  constructor
  · exact closes_of_closingLength?
  · rintro ⟨s, rest, rfl, rfl, hs⟩
    rw [closingLength?_enclosed hs 0, closingLength?_last, Option.map_some, Nat.add_comm]

/-- A parameter list has a text of the grammar between its parentheses. -/
theorem enclosed_of_expressionHere? {n : Nat} {t : Text} {a : Annotation}
    (h : expressionHere? n t = some a) : Enclosed (fun _ => True) a.body := by
  simp only [expressionHere?, Option.bind_eq_bind, Option.bind_eq_some_iff] at h
  obtain ⟨afterWord, _, h⟩ := h
  split at h
  · obtain ⟨k, hk, h⟩ := Option.bind_eq_some_iff.mp h
    obtain ⟨s, rest, rfl, rfl, hs⟩ := closingLength?_eq_some_iff.mp hk
    obtain rfl := Option.some.inj h
    simpa using hs
  · cases h

theorem enclosed_of_mem_extract {source : Text} {a : Annotation} (ha : a ∈ (extract source).value)
    (hform : a.form = .expression) : Enclosed (fun _ => True) a.body := by
  rcases mem_extract.mp ha with hblock | hfree
  · rw [(wellPlaced_of_mem_blocks hblock).2] at hform
    cases hform
  · obtain ⟨_, _, _, _, hhere⟩ := foundIn_of_mem_scanFrom (List.mem_filter.mp hfree).1
    exact enclosed_of_expressionHere? hhere

/-! ## 4. The parameter list around a text -/

/-- The parameter list with a certain body, directly behind the opening word, at an offset. -/
def parameterList (start : Nat) (body : Text) : Annotation where
  form := .expression
  body := body
  start := start
  stop := start + (opener ++ '(' :: body ++ [')']).length
  text := opener ++ '(' :: body ++ [')']

/-- The test for an occurrence finds the parameter list around a text of the grammar. -/
theorem expressionHere?_enclosed {taken : Char → Prop} {s : Text} (hs : Enclosed taken s) (n : Nat)
    (rest : Text) :
    expressionHere? n ((parameterList n s).text ++ rest) = some (parameterList n s) := by
  have hcut : (parameterList n s).text ++ rest = opener ++ '(' :: (s ++ ')' :: rest) := by
    simp [parameterList]
  have hword : opener.isPrefixOf? (opener ++ '(' :: (s ++ ')' :: rest))
      = some ('(' :: (s ++ ')' :: rest)) := List.isPrefixOf?_eq_some_iff_append_eq.mpr rfl
  have hspaces : dropSpaces ('(' :: (s ++ ')' :: rest)) = '(' :: (s ++ ')' :: rest) := rfl
  have hclosing : closingLength? 1 none (s ++ ')' :: rest) = some (s.length + 1) :=
    closingLength?_eq_some_iff.mpr ⟨s, rest, rfl, rfl, hs.mono fun _ _ _ => trivial⟩
  have hlength : (opener ++ '(' :: (s ++ ')' :: rest)).length - (s ++ ')' :: rest).length
      + (s.length + 1) = (parameterList n s).text.length := by
    simp [parameterList]
    omega
  rw [hcut, expressionHere?, hword]
  simp only [Option.bind_eq_bind, Option.bind_some, hspaces, hclosing, Nat.add_assoc, hlength,
    Nat.add_sub_cancel_left, Nat.add_sub_cancel, List.take_left]
  rw [← hcut, List.take_left]
  rfl

section scan

variable {here? : Nat → Text → Option Annotation}

/-- A scan passes over what is covered. -/
theorem scanFrom_covered_append (u w v : Text) :
    scanFrom here? u.getLast? u.length w.length (w ++ v)
      = scanFrom here? (u ++ w).getLast? (u ++ w).length 0 v := by
  induction w generalizing u with
  | nil => simp
  | cons c w ih =>
    have hlast : (u ++ [c]).getLast? = some c := List.getLast?_concat
    have hlength : (u ++ [c]).length = u.length + 1 := by simp
    have hlater := ih (u ++ [c])
    rw [hlast, hlength, List.append_assoc, List.singleton_append] at hlater
    rw [List.cons_append, List.length_cons, scanFrom_covered, hlater]

/-- A scan passes over a text without at signs if its test finds nothing but at one. -/
theorem scanFrom_no_at (hat : ∀ {n t a}, here? n t = some a → t.head? = some '@') {w : Text}
    (hw : '@' ∉ w) (u v : Text) :
    scanFrom here? u.getLast? u.length 0 (w ++ v)
      = scanFrom here? (u ++ w).getLast? (u ++ w).length 0 v := by
  induction w generalizing u with
  | nil => simp
  | cons c w ih =>
    rw [List.mem_cons, not_or] at hw
    have hnone : ¬ ∃ a, mayFollow u.getLast? = true ∧ here? u.length (c :: (w ++ v)) = some a := by
      rintro ⟨a, -, ha⟩
      exact hw.1 (Option.some.inj (hat ha)).symm
    have hlast : (u ++ [c]).getLast? = some c := List.getLast?_concat
    have hlength : (u ++ [c]).length = u.length + 1 := by simp
    have hlater := ih hw.2 (u ++ [c])
    rw [hlast, hlength, List.append_assoc, List.singleton_append] at hlater
    rw [List.cons_append, scanFrom_skip hnone, hlater]

end scan

theorem head?_of_expressionHere? {n : Nat} {t : Text} {a : Annotation}
    (h : expressionHere? n t = some a) : t.head? = some '@' := by
  obtain ⟨blanks, after, _, _, htext, ht, _⟩ := expressionHere?_eq_some h
  rw [ht, htext]
  rfl

/-- The scan for parameter lists finds the only one, whatever its body holds. -/
theorem expressions_enclosed {taken : Char → Prop} {before s after : Text}
    (hbefore : '@' ∉ before) (hmay : mayFollow before.getLast? = true) (hs : Enclosed taken s)
    (hafter : '@' ∉ after) :
    expressions (before ++ (parameterList before.length s).text ++ after)
      = [parameterList before.length s] := by
  have hhere := expressionHere?_enclosed hs before.length after
  have hstart := @scanFrom_no_at expressionHere? head?_of_expressionHere? _ hbefore []
    ((parameterList before.length s).text ++ after)
  obtain ⟨w, hw⟩ : ∃ w, (parameterList before.length s).text = '@' :: w := ⟨_, rfl⟩
  have hcovered : (parameterList before.length s).stop - (parameterList before.length s).start - 1
      = w.length := by
    have hlength := congrArg List.length hw
    simp only [parameterList] at hlength ⊢
    rw [List.length_cons] at hlength
    omega
  have hlast : (before ++ ['@']).getLast? = some '@' := List.getLast?_concat
  have hsucc : (before ++ ['@']).length = before.length + 1 := by simp
  rw [hw, List.cons_append] at hhere
  rw [List.nil_append, hw, List.cons_append] at hstart
  rw [expressions, List.append_assoc, hw, List.cons_append]
  refine hstart.trans ?_
  rw [scanFrom_found hmay hhere, hcovered, ← hlast, ← hsucc, scanFrom_covered_append]
  have hend := @scanFrom_no_at expressionHere? head?_of_expressionHere? _ hafter
    (before ++ ['@'] ++ w) []
  rw [List.append_nil] at hend
  rw [hend]
  rfl

/-! ## 5. Bodies of tokens -/

theorem ordinary_of_isBlank {c : Char} (hc : isBlank c = true) (hfeed : c ≠ '\n') :
    IsOrdinary c := by
  intro hmem
  have hothers : ∀ c ∈ Signature.specials, c = '\n' ∨ isBlank c = false :=
    forall_mem_of_all (by decide)
  rcases hothers c hmem with rfl | hnot
  · exact hfeed rfl
  · rw [hc] at hnot
    cases hnot

/-- The scan passes over characters that mean nothing to it. -/
theorem closingLength?_plain {w : Text} (hw : ∀ c ∈ w, IsOrdinary c) (depth : Nat) (t : Text) :
    closingLength? (depth + 1) none (w ++ t)
      = (closingLength? (depth + 1) none t).map (· + w.length) := by
  have hs : Enclosed (fun _ => True) (w ++ []) := enclosed_of_ordinary hw .nil
  rw [List.append_nil] at hs
  exact closingLength?_enclosed hs depth t

section pieces

variable {depth k : Nat} {t : Text}

/-- The scan has passed over a piece of a body, and the piece is on one line. -/
def PassedOver (piece t : Text) (k : Nat) : Prop :=
  '\n' ∉ piece ∧ ∃ depth j, closingLength? (depth + 1) none t = some j ∧ k = j + piece.length

theorem passedOver_of_ordinary {w : Text} (hw : ∀ c ∈ w, IsOrdinary c)
    (h : closingLength? (depth + 1) none (w ++ t) = some k) : PassedOver w t k := by
  rw [closingLength?_plain hw] at h
  obtain ⟨j, hj, rfl⟩ := Option.map_eq_some_iff.mp h
  exact ⟨fun hmem => (hw _ hmem).ne.1 rfl, depth, j, hj, rfl⟩

theorem passedOver_blanks {blanks : Text} (hblank : ∀ c ∈ blanks, isBlank c = true)
    (h : closingLength? (depth + 1) none (blanks ++ t) = some k) : PassedOver blanks t k := by
  refine passedOver_of_ordinary (fun c hc => ?_) h
  refine ordinary_of_isBlank (hblank c hc) ?_
  rintro rfl
  induction blanks generalizing k with
  | nil => exact absurd hc List.not_mem_nil
  | cons d blanks ih =>
    by_cases hfeed : d = '\n'
    · rw [hfeed, List.cons_append, closingLength?_feed] at h
      cases h
    · have hd := ordinary_of_isBlank (hblank d List.mem_cons_self) hfeed
      rw [List.cons_append, closingLength?_ordinary hd] at h
      obtain ⟨j, hj, rfl⟩ := Option.map_eq_some_iff.mp h
      rcases List.mem_cons.mp hc with hc | hc
      · exact hfeed hc.symm
      · exact ih (fun e he => hblank e (List.mem_cons_of_mem d he)) hj hc

/-- The scan ends at a line feed in quotes, and no other stands in a string token. -/
theorem not_feed_mem_of_string {quote : Char} {s : Text} (hs : StringInterior quote s)
    (h : closingLength? depth (some quote) (s ++ quote :: t) = some k) : '\n' ∉ s := by
  induction hs generalizing k with
  | nil => exact List.not_mem_nil
  | @char c s hc _ _ ih =>
    by_cases hfeed : c = '\n'
    · rw [hfeed, List.cons_append, closingLength?_feed] at h
      cases h
    · rw [List.cons_append, closingLength?_inside hfeed hc.2, if_neg hc.1] at h
      obtain ⟨j, hj, -⟩ := Option.map_eq_some_iff.mp h
      exact List.not_mem_cons_of_ne_of_not_mem (Ne.symm hfeed) (ih hj)
  | @escape c s hc _ ih =>
    rw [List.cons_append, List.cons_append, closingLength?_escape] at h
    obtain ⟨j, hj, -⟩ := Option.map_eq_some_iff.mp h
    exact List.not_mem_cons_of_ne_of_not_mem (by decide)
      (List.not_mem_cons_of_ne_of_not_mem (Ne.symm hc) (ih hj))

/-- The scan passes over each token, or it ends at one. -/
theorem passedOver_token {l : Lexeme} (hl : l.Shaped)
    (h : closingLength? (depth + 1) none (l.text ++ t) = some k) :
    PassedOver l.text t k ∨ k = l.text.length := by
  cases hl with
  | @string quote s hquote hs =>
    left
    have hcut : quote :: s ++ [quote] ++ t = quote :: (s ++ quote :: t) := by simp
    rw [hcut, closingLength?_quote hquote] at h
    obtain ⟨j, hj, rfl⟩ := Option.map_eq_some_iff.mp h
    have hfeed := not_feed_mem_of_string hs hj
    have hinside : Interior quote (· ≠ '\n') (fun _ => True) s :=
      hs.mono (fun c hc _ hc' => hfeed (hc' ▸ hc)) fun _ _ _ => trivial
    rw [closingLength?_interior hquote hinside] at hj
    obtain ⟨i, hi, rfl⟩ := Option.map_eq_some_iff.mp hj
    refine ⟨?_, depth, i, hi, ?_⟩
    · simp [hfeed, hquote.ne_feed.symm]
    · simp
      omega
  | @parenthesis c hc =>
    rcases hc with rfl | rfl
    · left
      rw [Lexeme.mark, List.singleton_append, closingLength?_opening] at h
      obtain ⟨j, hj, rfl⟩ := Option.map_eq_some_iff.mp h
      exact ⟨by decide, depth + 1, j, hj, rfl⟩
    · rw [Lexeme.mark, List.singleton_append] at h
      cases depth with
      | zero =>
        rw [closingLength?_last] at h
        exact .inr (Option.some.inj h).symm
      | succ depth =>
        rw [closingLength?_closing] at h
        obtain ⟨j, hj, rfl⟩ := Option.map_eq_some_iff.mp h
        exact .inl ⟨by decide, depth, j, hj, rfl⟩
  | ordinary _ htext => exact .inl (passedOver_of_ordinary htext h)

/-- A body of tokens that the scan passes over is on one line. -/
theorem not_feed_mem_of_spaced {ls : List Lexeme} {body : Text} (hspaced : Spaced ls body)
    (hshaped : ∀ l ∈ ls, l.Shaped) (h : closingLength? (depth + 1) none (body ++ t) = some k)
    (hk : body.length < k) : '\n' ∉ body := by
  induction hspaced generalizing depth k with
  | nil hblank => exact (passedOver_blanks hblank h).1
  | @cons blanks text l ls hblank _ ih =>
    rw [List.append_assoc, List.append_assoc] at h
    obtain ⟨hblanks, depth, j, hj, rfl⟩ := passedOver_blanks hblank h
    simp only [List.length_append] at hk
    rcases passedOver_token (hshaped l List.mem_cons_self) hj with hpassed | rfl
    · obtain ⟨hl, depth, i, hi, rfl⟩ := hpassed
      have htext := ih (fun l' hl' => hshaped l' (List.mem_cons_of_mem l hl')) hi (by omega)
      simp [hblanks, hl, htext]
    · omega

end pieces

/-- A body of the grammar that can be cut into tokens is on one line. -/
theorem not_feed_mem_of_tokenize {body : Text} {tokens : List Signature.Token}
    (hbody : Enclosed (fun _ => True) body) (h : Signature.tokenize body = .ok tokens) :
    '\n' ∉ body := by
  have hlength := closingLength?_enclosed hbody 0 [')']
  rw [closingLength?_last, Option.map_some] at hlength
  refine not_feed_mem_of_spaced (Signature.spaced_of_tokenize h) (fun l hl => ?_) hlength (by omega)
  obtain ⟨token, htoken, rfl⟩ := List.mem_map.mp hl
  exact Signature.shaped_of_tokenize h token htoken

/-- **The lines of a parameter list**: between its parentheses stands a text of the grammar, so
every line feed of the annotation stands directly behind a backslash. There is none exactly if no
backslash in quotes takes one, and a body with one is refused by the reader of parameter lists. -/
theorem lines_of_expression {source : Text} {a : Annotation} (ha : a ∈ (extract source).value)
    (hform : a.form = .expression) :
    Enclosed (fun _ => True) a.body ∧ FeedsEscaped a.text ∧
      ('\n' ∉ a.text ↔ Enclosed (· ≠ '\n') a.body) ∧
      ('\n' ∈ a.text → ∃ fault, Signature.declarations a.body = .error (.grammar fault)) := by
  have hbody := enclosed_of_mem_extract ha hform
  have hshape := (wellPlaced_of_mem_extract ha).shape
  rw [hform] at hshape
  obtain ⟨blanks, hspacing, htext⟩ := hshape
  have hlead : '\n' ∉ opener ++ blanks ++ ['('] := by
    have hblanks : '\n' ∉ blanks := fun hmem => by
      rcases hspacing _ hmem with h | h <;> exact absurd h (by decide)
    have hopener : '\n' ∉ opener := by decide
    simp [hblanks, hopener]
  have hcut : a.text = (opener ++ blanks ++ ['(']) ++ (a.body ++ [')']) := by
    rw [htext]
    simp
  have hmem : '\n' ∈ a.text ↔ '\n' ∈ a.body := by
    rw [hcut, List.mem_append, or_iff_right hlead]
    simp
  refine ⟨hbody, ?_, ?_, ?_⟩
  · rw [hcut]
    exact (feedsEscaped_of_not_mem hlead).append
      (hbody.feedsEscaped.append (feedsEscaped_of_not_mem (by decide)))
  · rw [hmem]
    exact ⟨fun hnone => hbody.mono fun c hc _ hfeed => hnone (hfeed ▸ hc), Enclosed.not_feed_mem⟩
  · intro hfeed
    cases htokens : Signature.tokenize a.body with
    | error fault => exact ⟨fault, by rw [Signature.declarations, htokens]; rfl⟩
    | ok tokens => exact absurd (hmem.mp hfeed) (not_feed_mem_of_tokenize hbody htokens)

/-- A parameter list with a quoted default that is broken over two lines. -/
def brokenList : Annotation where
  form := .expression
  body := "string $x = \"a\\\nb\"".toList
  start := 0
  stop := 28
  text := "@expects(string $x = \"a\\\nb\")".toList

theorem mem_extract_brokenList : brokenList ∈ (extract brokenList.text).value := by
  decide +kernel

/-- It is extracted, and refused when it is read. -/
theorem lines_of_brokenList : brokenList ∈ (extract brokenList.text).value ∧
    brokenList.form = .expression ∧ '\n' ∈ brokenList.text ∧
    ∃ fault, Signature.declarations brokenList.body = .error (.grammar fault) := by
  have hfeed : '\n' ∈ brokenList.text := by decide
  exact ⟨mem_extract_brokenList, rfl, hfeed,
    (lines_of_expression mem_extract_brokenList rfl).2.2.2 hfeed⟩

/-- A parameter list can go on behind the end of its line. -/
theorem not_forall_not_feed_mem : ¬ ∀ (source : Text) (a : Annotation),
    a ∈ (extract source).value → a.form = .expression → '\n' ∉ a.text := by
  intro h
  exact h brokenList.text brokenList mem_extract_brokenList rfl (by decide)

end ViewContract.Annotation
