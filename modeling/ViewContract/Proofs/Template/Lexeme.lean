/-
ViewContract.Proofs.Template.Lexeme — lexemes in front of other text.

A text is one lexeme of a tag if nothing of what follows belongs to it and no other kind of
lexeme is tried before with success. Each section shows this for one kind, with the condition
on the next character that the kind needs:

  §1 blanks. Every other lexeme here begins with a character that is none.
  §2 names, in front of a character that is no part of a name.
  §3 strings and operators, in front of anything; an equals sign not before another.
  §4 numbers, in front of a separator: whole ones in decimal, and those with a fraction or
     an exponent, which do not stand behind a point.

`Separates` is the condition that §2 and §4 share.
-/
import ViewContract.Proofs.Number.Spelling
import ViewContract.Template.Token

namespace ViewContract.Template

open ViewContract.Text
open ViewContract.Number (Spelling fractionText exponentPart)

/-- What a text begins with that ends a name or a number. -/
def Separates (t : Text) : Prop :=
  ∃ c rest, t = c :: rest ∧ (c = ' ' ∨ c = '(' ∨ c = ')' ∨ c = ',')

variable {before : Option Char}

/-! ## 1. Blanks -/

theorem lexeme?_blank {t : Text} (ht : t.head?.any isBlank = false) :
    lexeme? before (' ' :: t) = some (.blank, 1) := by
  have hrun : (' ' :: t).takeWhile isBlank = [' '] :=
    takeWhile_append_of_head (w := [' ']) (List.forall_mem_singleton.mpr (by decide)) ht
  simp [lexeme?, blankLength?, hrun]

theorem blankLength?_of_not_blank {c : Char} {t : Text} (hc : isBlank c = false) :
    blankLength? (c :: t) = none := by
  simp [blankLength?, hc]

/-! ## 2. Names -/

theorem floatLength?_of_not_digit {c : Char} {t : Text} (hc : isDecimalDigit c = false) :
    floatLength? before (c :: t) = none := by
  simp [floatLength?, decimalRun, hc]

theorem integerLength?_of_not_digit {c : Char} {t : Text} (hc : c.isDigit = false) :
    integerLength? (c :: t) = none := by
  have h0 : c ≠ '0' := fun h => absurd (h ▸ hc) (by decide)
  have h19 : ¬ ('1' ≤ c ∧ c ≤ '9') := by
    rintro ⟨h1, h9⟩
    have hd : c.isDigit = true := isDigit_iff.mpr
      ⟨Nat.le_trans (by decide) (UInt32.le_iff_toNat_le.mp h1), UInt32.le_iff_toNat_le.mp h9⟩
    rw [hc] at hd
    exact nomatch hd
  cases t <;> simp [integerLength?, h0, h19]

/-- A run of parts of a name is a name, unless it begins with a digit. -/
theorem lexeme?_run {c : Char} {w t : Text} (hw : ∀ d ∈ c :: w, isNamePart d = true)
    (hdigit : isDecimalDigit c = false) (ht : t.head?.any isNamePart = false) :
    lexeme? before (c :: w ++ t) = some (.name, (c :: w).length) := by
  have hblank := not_blank_of_isNamePart (hw c List.mem_cons_self)
  have hascii : c.isDigit = false := by
    refine Bool.eq_false_iff.mpr fun h => ?_
    rw [isDecimalDigit_of_isDigit h] at hdigit
    exact nomatch hdigit
  have hname : nameLength? (c :: (w ++ t)) = some (w.length + 1) := by
    have hrun := takeWhile_append_of_head hw ht
    rw [List.cons_append] at hrun
    simp [nameLength?, hrun]
  rw [List.cons_append, lexeme?, blankLength?_of_not_blank hblank, floatLength?_of_not_digit hdigit,
    integerLength?_of_not_digit hascii, hname]
  rfl

/-- An identifier is a name in front of a separator. -/
theorem lexeme?_name {w t : Text} (hw : isIdentifier w = true) (ht : Separates t) :
    lexeme? before (w ++ t) = some (.name, w.length) := by
  obtain ⟨c, rest, rfl, hstart, hparts⟩ := exists_of_isIdentifier hw
  have hpart := isIdentifierPart_of_start hstart
  have hdecimal : isDecimalDigit c = false := by
    rw [isDecimalDigit_of_lt (by have := isIdentifierPart_iff.mp hpart; omega),
      isDigit_of_isIdentifierStart hstart]
  have hhead : t.head?.any isNamePart = false := by
    obtain ⟨d, t, rfl, hd⟩ := ht
    rw [List.head?_cons, Option.any_some]
    rcases hd with rfl | rfl | rfl | rfl <;> decide
  exact lexeme?_run (fun d hd => isNamePart_of_isIdentifierPart (hparts d hd)) hdecimal hhead

/-! ## 3. Strings and operators -/

/-- A text up to a quote, in which every quote stands behind a backslash of its own. -/
inductive Quotable : Text → Prop where
  | nil : Quotable []
  | char {c : Char} {t : Text} (hc : c ≠ '"' ∧ c ≠ '\\') (ht : Quotable t) : Quotable (c :: t)
  | escape {c : Char} {t : Text} (ht : Quotable t) : Quotable ('\\' :: c :: t)

theorem Quotable.append {s t : Text} (hs : Quotable s) (ht : Quotable t) : Quotable (s ++ t) := by
  induction hs with
  | nil => exact ht
  | char hc _ ih => exact .char hc ih
  | escape _ ih => exact .escape ih

/-- The next quote ends the string. -/
theorem Quotable.stringTail? {s : Text} (hs : Quotable s) (t : Text) :
    Template.stringTail? '"' (s ++ '"' :: t) = some (s.length + 1) := by
  induction hs with
  | nil => rfl
  | @char c s hc _ ih =>
    rw [List.cons_append, Template.stringTail?.eq_def]
    split
    · rename_i h
      exact nomatch h
    · rename_i h
      exact absurd (List.cons.inj h).1 hc.2
    · rename_i d rest _ h
      obtain ⟨rfl, rfl⟩ := List.cons.inj h
      rw [if_neg hc.1, ih]
      rfl
  | @escape c s _ ih =>
    rw [List.cons_append, List.cons_append, Template.stringTail?, ih]
    rfl

theorem lexeme?_string {s t : Text} (hs : Quotable s) :
    lexeme? before ('"' :: s ++ ['"'] ++ t) = some (.string, ('"' :: s ++ ['"']).length) := by
  have hcut : '"' :: s ++ ['"'] ++ t = '"' :: (s ++ '"' :: t) := by simp
  have hname : nameLength? ('"' :: (s ++ '"' :: t)) = none := by
    simp [nameLength?, show isNamePart '"' = false by decide]
  rw [hcut, lexeme?, blankLength?_of_not_blank (by decide), floatLength?_of_not_digit (by decide),
    integerLength?_of_not_digit (by decide), hname, stringLength?, hs.stringTail?]
  simp

/-- The operators that stand in guards; an equals sign is not in front of another. -/
theorem lexeme?_operator {c : Char} {t : Text}
    (hc : c = '(' ∨ c = ')' ∨ c = ',' ∨ c = '-' ∨ c = '=' ∧ t.head? ≠ some '=') :
    lexeme? before (c :: t) = some (.operator, 1) := by
  have hlong : longOperators.any (·.toList.isPrefixOf (c :: t)) = false := by
    rcases hc with rfl | rfl | rfl | rfl | ⟨rfl, hd⟩
    · simp [longOperators, List.isPrefixOf]
    · simp [longOperators, List.isPrefixOf]
    · simp [longOperators, List.isPrefixOf]
    · simp [longOperators, List.isPrefixOf]
    · cases t with
      | nil => decide
      | cons d t =>
        have hne : '=' ≠ d := fun h => hd (by rw [← h]; rfl)
        simp [longOperators, List.isPrefixOf, hne]
  have hc' : c = '(' ∨ c = ')' ∨ c = ',' ∨ c = '-' ∨ c = '=' := by
    rcases hc with h | h | h | h | ⟨h, -⟩ <;> simp [h]
  have hnone : isBlank c = false ∧ isDecimalDigit c = false ∧ c.isDigit = false ∧
      isNamePart c = false ∧ shortOperators.contains c = true := by
    rcases hc' with rfl | rfl | rfl | rfl | rfl <;> decide
  have hstring : stringLength? (c :: t) = none := by
    rcases hc' with rfl | rfl | rfl | rfl | rfl <;> rfl
  have hname : nameLength? (c :: t) = none := by
    simp [nameLength?, hnone.2.2.2.1]
  have hop : operatorLength? (c :: t) = some 1 := by
    rw [operatorLength?, hlong]
    simpa using hnone.2.2.2.2
  rw [lexeme?, blankLength?_of_not_blank hnone.1, floatLength?_of_not_digit hnone.2.1,
    integerLength?_of_not_digit hnone.2.2.1, hname, hstring, hop]
  rfl

/-! ## 4. Numbers -/

/-- What follows a run of digits: neither another digit nor an underscore. -/
def EndsDigits (t : Text) : Prop :=
  ∀ c rest, t = c :: rest → isDecimalDigit c = false ∧ c ≠ '_'

theorem Separates.endsDigits {t : Text} (ht : Separates t) : EndsDigits t := by
  rintro c rest rfl
  obtain ⟨d, rest', h, hd⟩ := ht
  obtain ⟨rfl, rfl⟩ := List.cons.inj h
  rcases hd with rfl | rfl | rfl | rfl <;> decide

theorem endsDigits_cons {c : Char} {t : Text} (hc : isDecimalDigit c = false ∧ c ≠ '_') :
    EndsDigits (c :: t) := by
  rintro d rest h
  obtain ⟨rfl, rfl⟩ := List.cons.inj h
  exact hc

theorem digitsTail_eq {w t : Text} (hw : ∀ c ∈ w, c.isDigit = true) (ht : EndsDigits t) :
    digitsTail isDecimalDigit (w ++ t) = w.length := by
  induction w with
  | nil =>
    rw [List.nil_append, digitsTail.eq_def]
    split
    · rfl
    · rename_i rest
      exact absurd rfl (ht _ _ rfl).2
    · rename_i c rest _
      simp [(ht c rest rfl).1]
  | cons c w ih =>
    have hc := hw c List.mem_cons_self
    have hne : c ≠ '_' := fun h => absurd (h ▸ hc) (by decide)
    rw [List.cons_append, digitsTail.eq_def]
    split
    · rename_i h
      exact nomatch h
    · rename_i h
      exact absurd (List.cons.inj h).1 hne
    · rename_i d rest _ h
      obtain ⟨rfl, rfl⟩ := List.cons.inj h
      rw [if_pos (isDecimalDigit_of_isDigit hc), ih fun d hd => hw d (List.mem_cons_of_mem c hd),
        List.length_cons, Nat.add_comm]

theorem decimalRun_eq {w t : Text} (hne : w ≠ []) (hw : ∀ c ∈ w, c.isDigit = true)
    (ht : EndsDigits t) : decimalRun (w ++ t) = w.length := by
  obtain ⟨c, w, rfl⟩ := List.exists_cons_of_ne_nil hne
  have hc := isDecimalDigit_of_isDigit (hw c List.mem_cons_self)
  rw [List.cons_append, decimalRun, if_pos hc,
    digitsTail_eq (fun d hd => hw d (List.mem_cons_of_mem c hd)) ht, List.length_cons, Nat.add_comm]

theorem Separates.no_fraction_no_exponent {t : Text} (ht : Separates t) :
    fractionRun t = 0 ∧ exponentRun t = 0 := by
  obtain ⟨c, t, rfl, rfl | rfl | rfl | rfl⟩ := ht <;> exact ⟨rfl, rfl⟩

theorem floatLength?_digits {w t : Text} (hne : w ≠ []) (hw : ∀ c ∈ w, c.isDigit = true)
    (ht : Separates t) : floatLength? before (w ++ t) = none := by
  simp [floatLength?, decimalRun_eq hne hw ht.endsDigits, ht.no_fraction_no_exponent]

/-- A natural number in decimal is a whole number in front of a separator. -/
theorem lexeme?_integer (n : Nat) {t : Text} (ht : Separates t) :
    lexeme? before (Nat.toDigits 10 n ++ t) = some (.integer, (Nat.toDigits 10 n).length) := by
  have hdigits : ∀ c ∈ Nat.toDigits 10 n, c.isDigit = true := fun c => isDigit_of_mem_toDigits
  have hfloat : floatLength? before (Nat.toDigits 10 n ++ t) = none :=
    floatLength?_digits Nat.toDigits_ne_nil hdigits ht
  obtain ⟨c, w, hw⟩ := List.exists_cons_of_ne_nil (Nat.toDigits_ne_nil (n := n) (b := 10))
  rw [hw] at hdigits hfloat ⊢
  have hc := hdigits c List.mem_cons_self
  have hinteger : integerLength? (c :: (w ++ t)) = some (w.length + 1) := by
    cases Nat.eq_zero_or_pos n with
    | inl hn =>
      -- a zero stands alone, and no letter of a base follows it
      rw [hn, Nat.toDigits_zero] at hw
      obtain ⟨rfl, rfl⟩ := List.cons.inj hw
      obtain ⟨d, t, rfl, rfl | rfl | rfl | rfl⟩ := ht <;> rfl
    | inr hn =>
      have h0 : c ≠ '0' := by
        have := head?_toDigits hn
        rw [hw] at this
        exact fun h => this (h ▸ rfl)
      have h19 : '1' ≤ c ∧ c ≤ '9' := by
        have hd := isDigit_iff.mp hc
        have hne : c.toNat ≠ 48 := fun h => h0 (Char.ext (UInt32.toNat_inj.mp h))
        exact ⟨UInt32.le_iff_toNat_le.mpr (show 49 ≤ c.toNat by omega),
          UInt32.le_iff_toNat_le.mpr hd.2⟩
      have htail := digitsTail_eq (fun d hd => hdigits d (List.mem_cons_of_mem c hd)) ht.endsDigits
      cases hrest : w ++ t with
      | nil =>
        obtain ⟨d, t, rfl, _⟩ := ht
        simp at hrest
      | cons d rest =>
        rw [hrest] at htail
        simp [integerLength?, h0, h19.1, h19.2, htail, Nat.add_comm]
  rw [List.cons_append] at hfloat ⊢
  rw [lexeme?, blankLength?_of_not_blank
    (not_blank_of_isIdentifierPart (isIdentifierPart_of_isDigit hc)), hfloat, hinteger]
  rfl

theorem fractionRun_eq {f t : Text} (hf : ∀ c ∈ f, c.isDigit = true) (ht : EndsDigits t)
    (hpoint : t.head? ≠ some '.') :
    fractionRun (fractionText f ++ t) = (fractionText f).length := by
  rw [fractionText]
  split
  · cases t with
    | nil => rfl
    | cons c t =>
      have hc : c ≠ '.' := fun h => hpoint (h ▸ rfl)
      rw [List.nil_append, fractionRun.eq_def]
      split
      · rename_i h
        exact absurd (List.cons.inj h).1 hc
      · rfl
  · rename_i hne
    have hlen : f.length ≠ 0 := fun h => hne (List.length_eq_zero_iff.mp h)
    rw [List.cons_append, fractionRun, decimalRun_eq hne hf ht, if_neg hlen, List.length_cons,
      Nat.add_comm]

theorem exponentRun_eq {negative : Bool} {ds t : Text} (hds : ∀ c ∈ ds, c.isDigit = true)
    (ht : Separates t) :
    exponentRun (exponentPart negative ds ++ t) = (exponentPart negative ds).length := by
  rw [exponentPart]
  split
  · exact ht.no_fraction_no_exponent.2
  · rename_i hne
    have hlen : ds.length ≠ 0 := fun h => hne (List.length_eq_zero_iff.mp h)
    have hrun := decimalRun_eq hne hds ht.endsDigits
    cases negative <;> simp [exponentRun, hrun, hlen] <;> omega

/-- A spelling is a number in front of a separator. -/
theorem lexeme?_float (s : Spelling) {t : Text} (ht : Separates t) (hbefore : before ≠ some '.') :
    lexeme? before (s.text ++ t) = some (.float, s.text.length) := by
  -- neither the exponent nor what follows goes on with digits or with a point
  have hexp : EndsDigits (exponentPart s.negative s.exponent ++ t) ∧
      (exponentPart s.negative s.exponent ++ t).head? ≠ some '.' := by
    rw [exponentPart]
    split
    · refine ⟨ht.endsDigits, ?_⟩
      obtain ⟨c, t, rfl, rfl | rfl | rfl | rfl⟩ := ht <;> simp
    · exact ⟨endsDigits_cons (by decide), by simp⟩
  have hfrac : EndsDigits (fractionText s.fraction ++
      (exponentPart s.negative s.exponent ++ t)) := by
    rw [fractionText]
    split
    · exact hexp.1
    · exact endsDigits_cons (by decide)
  have hpos :
      (fractionText s.fraction).length + (exponentPart s.negative s.exponent).length ≠ 0 := by
    rcases s.some_part with h | h <;> simp [fractionText, exponentPart, h]
  have hwhole := decimalRun_eq s.whole_ne (fun c => s.whole_digits) hfrac
  have hfraction := fractionRun_eq (fun c => s.fraction_digits) hexp.1 hexp.2
  have hexponent : exponentRun (exponentPart s.negative s.exponent ++ t) = _ :=
    exponentRun_eq (fun c => s.exponent_digits) ht
  have hlen : s.whole.length ≠ 0 := fun h => s.whole_ne (List.length_eq_zero_iff.mp h)
  have hfloat : floatLength? before (s.text ++ t) = some s.text.length := by
    simp only [Spelling.text, List.append_assoc]
    simp [floatLength?, hwhole, ← List.drop_drop, hfraction, hexponent, hlen, hbefore]
    exact ⟨fun hf he => hpos (by rw [hf, he]; rfl), Nat.add_assoc _ _ _⟩
  obtain ⟨c, w, htext, hc⟩ := s.exists_head
  rw [lexeme?, hfloat, htext, List.cons_append, blankLength?_of_not_blank
    (not_blank_of_isIdentifierPart (isIdentifierPart_of_isDigit hc))]
  rfl

end ViewContract.Template
