/-
ViewContract.Proofs.Text.Blank — blanks among the other characters, and trimming.

Blanks and digits are tables of all scripts, so that no character is both is a check of the
one table against the other. The characters with a meaning of their own are ASCII.

  §1 a blank is no digit, no letter and no underscore.
  §2 trimming takes away what stands before the first and behind the last character that is
     not blank (`trim_append`).
  §3 what is left, and where it stands in the text (`exists_trim`).
-/
import ViewContract.Proofs.Text.Ascii

namespace ViewContract.Text

/-! ## 1. Blanks and other characters -/

/-- No digit of any script is blank. -/
theorem not_blank_of_isDecimalDigit {c : Char} (h : isDecimalDigit c = true) :
    isBlank c = false := by
  have htables : zeros.all (fun first =>
      (List.range 10).all fun value => !blankRanges.contains (first + value)) = true := by
    decide +kernel
  obtain ⟨value, hvalue⟩ := Option.isSome_iff_exists.mp h
  obtain ⟨first, hfind, _⟩ := Option.map_eq_some_iff.mp hvalue
  have hrun := List.find?_some hfind
  simp only [Bool.and_eq_true, decide_eq_true_eq] at hrun
  have hfirst := List.all_eq_true.mp htables first (List.mem_of_find?_eq_some hfind)
  have hcut : first + (c.toNat - first) = c.toNat := by omega
  have hc := List.all_eq_true.mp hfirst (c.toNat - first) (List.mem_range.mpr (by omega))
  rw [hcut] at hc
  rw [isBlank]
  simpa using hc

theorem ne_of_isBlank {c d : Char} (hc : isBlank c = true) (hd : isBlank d = false) : c ≠ d := by
  rintro rfl
  rw [hc] at hd
  exact nomatch hd

theorem isIdentifierPart_of_isBlank {c : Char} (hc : isBlank c = true) :
    isIdentifierPart c = false :=
  Bool.eq_false_iff.mpr fun hpart => ne_of_isBlank hc (not_blank_of_isIdentifierPart hpart) rfl

theorem isDecimalDigit_of_isBlank {c : Char} (hc : isBlank c = true) : isDecimalDigit c = false :=
  Bool.eq_false_iff.mpr fun hdigit => ne_of_isBlank hc (not_blank_of_isDecimalDigit hdigit) rfl

/-! ## 2. Trimming -/

theorem trimStart_append {blanks : Text} (hblank : ∀ c ∈ blanks, isBlank c = true) {t : Text}
    (ht : t.head?.all (!isBlank ·) = true) : trimStart (blanks ++ t) = t := by
  rw [trimStart, List.dropWhile_append_of_pos hblank]
  cases t with
  | nil => rfl
  | cons c t =>
    have hc : isBlank c = false := by simpa using ht
    rw [List.dropWhile_cons, if_neg (by rw [hc]; exact Bool.false_ne_true)]

theorem trimEnd_append {blanks : Text} (hblank : ∀ c ∈ blanks, isBlank c = true) {t : Text}
    (ht : t.getLast?.all (!isBlank ·) = true) : trimEnd (t ++ blanks) = t := by
  have hstart : trimStart (blanks.reverse ++ t.reverse) = t.reverse :=
    trimStart_append (fun c hc => hblank c (List.mem_reverse.mp hc))
      (by rwa [List.head?_reverse])
  rw [trimStart, ← List.reverse_append] at hstart
  rw [trimEnd, dropEndWhile, hstart, List.reverse_reverse]

/-- Trimming takes away the blanks around a text that neither begins nor ends with one. -/
theorem trim_append {before after t : Text} (hbefore : ∀ c ∈ before, isBlank c = true)
    (hafter : ∀ c ∈ after, isBlank c = true) (hstart : t.head?.all (!isBlank ·) = true)
    (hend : t.getLast?.all (!isBlank ·) = true) : trim (before ++ t ++ after) = t := by
  rw [trim, List.append_assoc]
  cases t with
  | nil =>
    rw [List.nil_append, ← List.append_nil (before ++ after),
      trimStart_append (by simpa [or_imp, forall_and] using ⟨hbefore, hafter⟩) rfl]
    rfl
  | cons c t =>
    rw [trimStart_append hbefore (by simpa using hstart), trimEnd_append hafter hend]

theorem trim_eq_self {t : Text} (hstart : t.head?.all (!isBlank ·) = true)
    (hend : t.getLast?.all (!isBlank ·) = true) : trim t = t := by
  have h : trim ([] ++ t ++ []) = t := trim_append nofun nofun hstart hend
  rwa [List.append_nil, List.nil_append] at h

theorem trim_cons {c : Char} (hc : isBlank c = true) (t : Text) : trim (c :: t) = trim t := by
  rw [trim, trim, trimStart, List.dropWhile_cons, if_pos hc]
  rfl

theorem trim_cons_blank {c : Char} {t : Text} (hc : isBlank c = true)
    (hstart : t.head?.all (!isBlank ·) = true) (hend : t.getLast?.all (!isBlank ·) = true) :
    trim (c :: t) = t := by
  rw [trim_cons hc, trim_eq_self hstart hend]

theorem trim_eq_self_of_forall {t : Text} (h : ∀ c ∈ t, isBlank c = false) : trim t = t := by
  have hall : ∀ c, t.head? = some c ∨ t.getLast? = some c → isBlank c = false := by
    rintro c (hc | hc)
    · exact h c (List.mem_of_head? hc)
    · exact h c (List.mem_of_getLast? hc)
  refine trim_eq_self ?_ ?_
  · cases hc : t.head? with
    | none => rfl
    | some c => simpa using hall c (.inl hc)
  · cases hc : t.getLast? with
    | none => rfl
    | some c => simpa using hall c (.inr hc)

/-! ## 3. What trimming leaves -/

theorem exists_trimStart (t : Text) : ∃ before, t = before ++ trimStart t ∧
    (∀ c ∈ before, isBlank c = true) ∧ (trimStart t).head?.all (!isBlank ·) = true := by
  induction t with
  | nil => exact ⟨[], rfl, nofun, rfl⟩
  | cons c t ih =>
    rw [trimStart, List.dropWhile_cons]
    split
    · rename_i hc
      obtain ⟨before, hcut, hbefore, hhead⟩ := ih
      exact ⟨c :: before, congrArg (c :: ·) hcut, List.forall_mem_cons.mpr ⟨hc, hbefore⟩, hhead⟩
    · rename_i hc
      exact ⟨[], rfl, nofun, by simpa using hc⟩

theorem exists_trimEnd (t : Text) : ∃ after, t = trimEnd t ++ after ∧
    (∀ c ∈ after, isBlank c = true) ∧ (trimEnd t).getLast?.all (!isBlank ·) = true := by
  obtain ⟨before, hcut, hbefore, hhead⟩ := exists_trimStart t.reverse
  refine ⟨before.reverse, ?_, fun c hc => hbefore c (List.mem_reverse.mp hc), ?_⟩
  · rw [← List.reverse_inj, List.reverse_append, List.reverse_reverse, trimEnd, dropEndWhile,
      List.reverse_reverse]
    exact hcut
  · rwa [trimEnd, dropEndWhile, List.getLast?_reverse]

/-- A text is what trimming leaves of it and blanks around that, and what is left neither begins nor
ends with one. -/
theorem exists_trim (t : Text) : ∃ before after, t = before ++ trim t ++ after ∧
    (∀ c ∈ before, isBlank c = true) ∧ (∀ c ∈ after, isBlank c = true) ∧
    (trim t).head?.all (!isBlank ·) = true ∧ (trim t).getLast?.all (!isBlank ·) = true := by
  obtain ⟨before, hcut, hbefore, hstart⟩ := exists_trimStart t
  obtain ⟨after, hcut', hafter, hend⟩ := exists_trimEnd (trimStart t)
  refine ⟨before, after, ?_, hbefore, hafter, ?_, hend⟩
  · rw [List.append_assoc, trim, ← hcut', ← hcut]
  · rw [hcut'] at hstart
    rw [trim]
    cases hleft : trimEnd (trimStart t) with
    | nil => rfl
    | cons c w =>
      rw [hleft] at hstart
      exact hstart

/-- A text that ends with no blank is trimmed at its start only. -/
theorem exists_trim_of_getLast? {t : Text} {c : Char} (hlast : t.getLast? = some c)
    (hc : isBlank c = false) : trim t ≠ [] ∧ ∃ before, t = before ++ trim t ∧
    ∀ d ∈ before, isBlank d = true := by
  obtain ⟨before, after, hcut, hbefore, hafter, -, -⟩ := exists_trim t
  have hnone : after = [] := by
    cases hend : after.getLast? with
    | none => exact List.getLast?_eq_none_iff.mp hend
    | some d =>
      rw [hcut, List.getLast?_append, hend, Option.some_or] at hlast
      obtain rfl := Option.some.inj hlast
      exact absurd rfl (ne_of_isBlank (hafter d (List.mem_of_getLast? hend)) hc)
  rw [hnone, List.append_nil] at hcut
  refine ⟨?_, before, hcut, hbefore⟩
  intro htrim
  rw [htrim, List.append_nil] at hcut
  rw [hcut] at hlast
  exact ne_of_isBlank (hbefore c (List.mem_of_getLast? hlast)) hc rfl

theorem trim_trim (t : Text) : trim (trim t) = trim t := by
  obtain ⟨_, _, _, _, _, hstart, hend⟩ := exists_trim t
  exact trim_eq_self hstart hend

theorem trim_append_left {before : Text} (h : ∀ c ∈ before, isBlank c = true) (t : Text) :
    trim (before ++ t) = trim t := by
  induction before with
  | nil => rfl
  | cons c before ih =>
    rw [List.cons_append, trim_cons (h c List.mem_cons_self),
      ih fun d hd => h d (List.mem_cons_of_mem c hd)]

/-- Behind a character that is not blank only the end is trimmed. -/
theorem exists_trim_cons {c : Char} (hc : isBlank c = false) (t : Text) :
    ∃ rest, trim (c :: t) = c :: rest ∧ trim rest = trim t := by
  obtain ⟨before, after, hcut, hbefore, hafter, hstart, hend⟩ := exists_trim t
  cases ht : trim t with
  | nil =>
    rw [ht, List.append_nil] at hcut
    have htrim : trim ([] ++ [c] ++ t) = [c] := by
      refine trim_append nofun (fun d hd => ?_) (by simpa using hc) (by simpa using hc)
      rw [hcut] at hd
      exact (List.mem_append.mp hd).elim (hbefore d) (hafter d)
    exact ⟨[], htrim, rfl⟩
  | cons d w =>
    rw [ht] at hcut hstart hend
    have htrim : trim ([] ++ (c :: (before ++ d :: w)) ++ after) = c :: (before ++ d :: w) := by
      refine trim_append nofun hafter (by simpa using hc) ?_
      have hlast := List.getLast?_eq_some_getLast (List.cons_ne_nil d w)
      rw [hlast] at hend
      rwa [← List.cons_append, List.getLast?_append, hlast]
    refine ⟨before ++ d :: w, ?_, ?_⟩
    · rw [hcut, ← htrim]
      simp
    · rw [trim_append_left hbefore, trim_eq_self hstart hend]

/-- A text that begins with no blank is trimmed at its end only. -/
theorem exists_trim_of_head? {t : Text} {c : Char} (hfirst : t.head? = some c)
    (hc : isBlank c = false) : (trim t).head? = some c ∧ ∃ after, t = trim t ++ after ∧
    ∀ d ∈ after, isBlank d = true := by
  obtain ⟨rest, rfl⟩ := List.head?_eq_some_iff.mp hfirst
  obtain ⟨inner, hinner, -⟩ := exists_trim_cons hc rest
  obtain ⟨after, hcut, hafter, -⟩ := exists_trimEnd (c :: rest)
  have hstart : trimStart (c :: rest) = c :: rest := by
    rw [trimStart, List.dropWhile_cons, if_neg (by rw [hc]; exact Bool.false_ne_true)]
  refine ⟨by rw [hinner]; rfl, after, ?_, hafter⟩
  rw [trim, hstart, ← hcut]

end ViewContract.Text
