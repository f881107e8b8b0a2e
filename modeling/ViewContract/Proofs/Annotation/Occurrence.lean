/-
ViewContract.Proofs.Annotation.Occurrence — the shape of one occurrence.

Each form has a test that says whether a text begins with an annotation. Here each test
is read as a statement about the text:

  §1 a parameter list is the opening word, spacing and a body in parentheses
     (`expressionHere?_eq_some`).
  §2 a block is the opening word and a body up to the first closing word that no word
     character follows (`blockHere?_eq_some`), and there is one as soon as there is any
     such closing word (`blockHere?_isSome`).

`ClosesAt before after t` says both where a closing word stands and that it counts. The
body of a block ends at the first such place, so the bound on `before` in
`IsFirstClose` is what keeps a body from running over an earlier closing word.
-/
import ViewContract.Proofs.Annotation.Scan
import Mathlib.Data.List.TakeWhile

namespace ViewContract.Annotation

open ViewContract.Text

/-! ## 1. Parameter lists -/

/-- `k` characters of a text end with a closing parenthesis. -/
def ClosesAfter (k : Nat) (t : Text) : Prop :=
  ∃ body after, t = body ++ ')' :: after ∧ k = body.length + 1

theorem ClosesAfter.cons {k : Nat} {t : Text} (c : Char) (h : ClosesAfter k t) :
    ClosesAfter (k + 1) (c :: t) := by
  obtain ⟨body, after, rfl, rfl⟩ := h
  exact ⟨c :: body, after, rfl, rfl⟩

/-- The search for the balancing parenthesis ends at a parenthesis. -/
theorem closesAfter_of_closingLength? {depth : Nat} {quote : Option Char} {t : Text} {k : Nat}
    (h : closingLength? depth quote t = some k) : ClosesAfter k t := by
  fun_induction closingLength? depth quote t generalizing k with
  | case1 | case2 | case3 => exact nomatch h
  | case4 _ _ _ _ _ ih =>
    -- a backslash in quoted text takes the next character with it
    obtain ⟨j, hj, rfl⟩ := Option.map_eq_some_iff.mp h
    exact ((ih hj).cons _).cons _
  | case8 =>
    obtain rfl := Option.some.inj h
    exact ⟨[], _, rfl, rfl⟩
  | case5 | case6 | case7 | case9 | case10 =>
    rename_i ih
    obtain ⟨j, hj, rfl⟩ := Option.map_eq_some_iff.mp h
    exact (ih hj).cons _

/-- Spaces and tabs only. -/
def IsSpacing (t : Text) : Prop :=
  ∀ c ∈ t, c = ' ' ∨ c = '\t'

/-- What `dropSpaces` drops is spacing. -/
theorem exists_spacing (t : Text) : ∃ blanks, t = blanks ++ dropSpaces t ∧ IsSpacing blanks := by
  refine ⟨t.takeWhile fun c => c = ' ' || c = '\t', List.takeWhile_append_dropWhile.symm, ?_⟩
  intro c hc
  simpa using List.mem_takeWhile_imp hc

/-- A parameter list is the opening word, spacing, and a body in parentheses. -/
theorem expressionHere?_eq_some {n : Nat} {t : Text} {a : Annotation}
    (h : expressionHere? n t = some a) :
    ∃ blanks after, IsSpacing blanks ∧ a.form = .expression ∧
      a.text = opener ++ blanks ++ '(' :: a.body ++ [')'] ∧ t = a.text ++ after ∧
      a.start = n ∧ a.stop = n + a.text.length := by
  simp only [expressionHere?, Option.bind_eq_bind, Option.bind_eq_some_iff] at h
  obtain ⟨afterWord, hpre, h⟩ := h
  have ht : opener ++ afterWord = t := List.append_eq_of_isPrefixOf?_eq_some hpre
  obtain ⟨blanks, hblanks, hspacing⟩ := exists_spacing afterWord
  split at h
  · rename_i inner hinner
    obtain ⟨k, hk, h⟩ := Option.bind_eq_some_iff.mp h
    obtain ⟨body, after, rfl, rfl⟩ := closesAfter_of_closingLength? hk
    have hcut : t = (opener ++ blanks ++ '(' :: body ++ [')']) ++ after := by
      rw [← ht, hblanks, hinner]
      simp
    have hlen : t.length - (body ++ ')' :: after).length + (body.length + 1)
        = (opener ++ blanks ++ '(' :: body ++ [')']).length := by
      rw [hcut]
      simp only [List.length_append, List.length_cons, List.length_nil]
      omega
    obtain rfl := Option.some.inj h
    have htext : t.take (n + (t.length - (body ++ ')' :: after).length) + (body.length + 1) - n)
        = opener ++ blanks ++ '(' :: body ++ [')'] := by
      rw [Nat.add_assoc, hlen, Nat.add_sub_cancel_left, hcut, List.take_left]
    refine ⟨blanks, after, hspacing, rfl, ?_, ?_, rfl, ?_⟩
    · simp only [htext, Nat.add_sub_cancel, List.take_left]
    · simp only [htext]
      exact hcut
    · simp only [htext]
      rw [Nat.add_assoc, hlen]
  · exact nomatch h

theorem expressionHere?_findsPieces : FindsPieces expressionHere? := by
  intro n t a h
  obtain ⟨blanks, after, _, _, htext, ht, hstart, hstop⟩ := expressionHere?_eq_some h
  exact ⟨hstart, hstop, by rw [htext]; simp, ⟨after, ht.symm⟩⟩

/-! ## 2. Blocks -/

/-- A closing word stands behind `before`, and no word character follows it. -/
def ClosesAt (before after t : Text) : Prop :=
  t = before ++ blockCloser ++ after ∧ after.head?.any isWord = false

theorem ClosesAt.cons {before after t : Text} (c : Char) (h : ClosesAt before after t) :
    ClosesAt (c :: before) after (c :: t) :=
  ⟨by rw [h.1]; rfl, h.2⟩

theorem ClosesAt.of_cons {before after t : Text} {c d : Char}
    (h : ClosesAt (d :: before) after (c :: t)) : d = c ∧ ClosesAt before after t := by
  obtain ⟨hcat, hword⟩ := h
  rw [List.cons_append, List.cons_append] at hcat
  obtain ⟨rfl, rfl⟩ := List.cons.inj hcat
  exact ⟨rfl, rfl, hword⟩

/-- A text up to its first closing word that no word character follows. -/
def IsFirstClose (body t : Text) : Prop :=
  (∃ after, ClosesAt body after t) ∧
    ∀ before after, ClosesAt before after t → body.length ≤ before.length

theorem IsFirstClose.cons {body t : Text} {c : Char} (h : IsFirstClose body t)
    (hc : ∀ after, ¬ ClosesAt [] after (c :: t)) : IsFirstClose (c :: body) (c :: t) := by
  obtain ⟨⟨after, hclose⟩, hfirst⟩ := h
  refine ⟨⟨after, hclose.cons c⟩, ?_⟩
  intro before x hx
  cases before with
  | nil => exact absurd hx (hc x)
  | cons d before => exact Nat.succ_le_succ (hfirst before x hx.of_cons.2)

/-- The body of a block ends at the first closing word. -/
theorem isFirstClose_of_blockBody? {t body : Text} (h : blockBody? t = some body) :
    IsFirstClose body t := by
  fun_induction blockBody? t generalizing body with
  | case1 => exact nomatch h
  | case2 c rest after hpre hword ih =>
    obtain ⟨b, hb, rfl⟩ := Option.map_eq_some_iff.mp h
    refine (ih hb).cons fun x hx => ?_
    -- the closing word stands right here, but a word character follows it
    have hsame : blockCloser ++ after = blockCloser ++ x :=
      (List.append_eq_of_isPrefixOf?_eq_some hpre).trans hx.1
    rw [List.append_cancel_left hsame, hx.2] at hword
    exact nomatch hword
  | case3 c rest after hpre hword =>
    obtain rfl := Option.some.inj h
    refine ⟨⟨after, (List.append_eq_of_isPrefixOf?_eq_some hpre).symm, by simpa using hword⟩, ?_⟩
    intro before _ _
    exact Nat.zero_le before.length
  | case4 c rest hpre ih =>
    obtain ⟨b, hb, rfl⟩ := Option.map_eq_some_iff.mp h
    refine (ih hb).cons fun x hx => ?_
    have hsome : blockCloser.isPrefixOf? (c :: rest) = some x :=
      List.isPrefixOf?_eq_some_iff_append_eq.mpr hx.1.symm
    rw [hpre] at hsome
    exact nomatch hsome

/-- A text with a closing word that counts has a first one. -/
theorem blockBody?_isSome {before after t : Text} (h : ClosesAt before after t) :
    (blockBody? t).isSome = true := by
  induction before generalizing t with
  | nil =>
    obtain ⟨ht, hword⟩ := h
    have hsome : blockCloser.isPrefixOf? t = some after :=
      List.isPrefixOf?_eq_some_iff_append_eq.mpr ht.symm
    cases t with
    | nil => exact nomatch ht
    | cons c rest => simp [blockBody?, hsome, hword]
  | cons d before ih =>
    cases t with
    | nil => exact nomatch h.1
    | cons c rest =>
      have hrest := ih h.of_cons.2
      rw [blockBody?]
      split
      · split
        · simpa using hrest
        · rfl
      · simpa using hrest

/-- Whether what follows the opening word leaves room for a block: no word character and
no parenthesis. -/
def OpensBlock (afterWord : Text) : Prop :=
  afterWord.head?.any isWord = false ∧ (dropSpaces afterWord).head? ≠ some '('

/-- A block is the opening word and a body up to the first closing word. -/
theorem blockHere?_eq_some {n : Nat} {t : Text} {a : Annotation} (h : blockHere? n t = some a) :
    ∃ after, a.form = .block ∧ a.text = opener ++ a.body ++ blockCloser ∧ t = a.text ++ after ∧
      after.head?.any isWord = false ∧ IsFirstClose a.body (a.body ++ blockCloser ++ after) ∧
      OpensBlock (a.body ++ blockCloser ++ after) ∧
      a.start = n ∧ a.stop = n + a.text.length := by
  simp only [blockHere?, Option.bind_eq_bind, Option.bind_eq_some_iff] at h
  obtain ⟨afterWord, hpre, h⟩ := h
  have ht : opener ++ afterWord = t := List.append_eq_of_isPrefixOf?_eq_some hpre
  split at h
  · exact nomatch h
  · rename_i hopens
    obtain ⟨body, hbody, ha⟩ := Option.bind_eq_some_iff.mp h
    have hfirst := isFirstClose_of_blockBody? hbody
    obtain ⟨after, rfl, hword⟩ := hfirst.1
    have hcut : t = (opener ++ body ++ blockCloser) ++ after := by
      rw [← ht]
      simp
    obtain rfl := Option.some.inj ha
    have htext : t.take (n + opener.length + body.length + blockCloser.length - n)
        = opener ++ body ++ blockCloser := by
      have hlen : n + opener.length + body.length + blockCloser.length - n
          = (opener ++ body ++ blockCloser).length := by
        simp only [List.length_append]
        omega
      rw [hlen, hcut, List.take_left]
    refine ⟨after, rfl, htext, ?_, hword, hfirst, by simpa [OpensBlock] using hopens, rfl, ?_⟩
    · simp only [htext]
      exact hcut
    · simp only [htext, List.length_append]
      omega

/-- There is a block as soon as there is room for one and a closing word. -/
theorem blockHere?_isSome {before after afterWord : Text} (n : Nat) (ho : OpensBlock afterWord)
    (hc : ClosesAt before after afterWord) :
    (blockHere? n (opener ++ afterWord)).isSome = true := by
  have hpre : opener.isPrefixOf? (opener ++ afterWord) = some afterWord :=
    List.isPrefixOf?_eq_some_iff_append_eq.mpr rfl
  obtain ⟨body, hbody⟩ := Option.isSome_iff_exists.mp (blockBody?_isSome hc)
  simp [blockHere?, hpre, hbody, ho.1, ho.2]

theorem blockHere?_findsPieces : FindsPieces blockHere? := by
  intro n t a h
  obtain ⟨after, _, htext, ht, _, _, _, hstart, hstop⟩ := blockHere?_eq_some h
  have hne : a.text ≠ [] := by
    rw [htext]
    exact List.append_ne_nil_of_right_ne_nil _ (by decide)
  exact ⟨hstart, hstop, hne, ⟨after, ht.symm⟩⟩

end ViewContract.Annotation
