/-
ViewContract.Proofs.Text.Ascii — the ASCII part of the character classes.

The classes are tables of code points of all scripts. What the library writes itself is
ASCII, where each class is a few letters:

  §1 runs of characters, and what all of them have; of the decimal digits of every script the ASCII
     ones are `0` to `9`.
  §2 names: the parts of an identifier are parts of a name, and not blank.
  §3 the digits of a number as text, and the number they are read as.
-/
import ViewContract.Text.Blank
import ViewContract.Text.Digit
import ViewContract.Text.Identifier
import ViewContract.Text.Word

namespace ViewContract.Text

/-! ## 1. Runs and digits -/

/-- What holds of every character of a text, looked up in the text alone: deciding the statement
as it stands would go through all characters. -/
theorem forall_mem_of_all {p : Char → Prop} [DecidablePred p] {t : Text}
    (h : t.all (fun c => decide (p c)) = true) : ∀ c ∈ t, p c := by
  simpa using h

/-- A run of characters ends where the text goes on with another. -/
theorem takeWhile_append_of_head {p : Char → Bool} {w t : Text} (hw : ∀ c ∈ w, p c = true)
    (ht : t.head?.any p = false) : (w ++ t).takeWhile p = w := by
  rw [List.takeWhile_append_of_pos hw]
  cases t with
  | nil => simp
  | cons c t =>
    rw [List.head?_cons, Option.any_some] at ht
    simp [ht]

/-- A run has ended in front of a character that it does not take. -/
theorem takeWhile_append_cons {p : Char → Bool} {c : Char} (hc : p c = false) (t rest : Text) :
    (t ++ c :: rest).takeWhile p = t.takeWhile p := by
  induction t with
  | nil => simp [hc]
  | cons d t ih => rw [List.cons_append, List.takeWhile_cons, List.takeWhile_cons, ih]

theorem dropWhile_append_cons {p : Char → Bool} {c : Char} (hc : p c = false) (t rest : Text) :
    (t ++ c :: rest).dropWhile p = t.dropWhile p ++ c :: rest := by
  induction t with
  | nil => simp [hc]
  | cons d t ih =>
    rw [List.cons_append, List.dropWhile_cons, List.dropWhile_cons, ih]
    split <;> rfl

theorem isDigit_iff {c : Char} : c.isDigit = true ↔ 48 ≤ c.toNat ∧ c.toNat ≤ 57 := by
  simp only [Char.isDigit, Bool.and_eq_true, decide_eq_true_eq, ge_iff_le,
    UInt32.le_iff_toNat_le]
  exact Iff.rfl

/-- Below the second zero of the table only the ASCII digits count. -/
theorem decimalDigit?_of_lt {c : Char} (h : c.toNat < 1632) :
    decimalDigit? c = if c.isDigit then some (c.toNat - 48) else none := by
  have hlater :
      (zeros.drop 1).find? (fun first => first ≤ c.toNat && c.toNat ≤ first + 9) = none := by
    refine List.find?_eq_none.mpr fun first hfirst => ?_
    have hall : (zeros.drop 1).all (1632 ≤ ·) = true := by decide
    have := List.all_eq_true.mp hall first hfirst
    simp only [decide_eq_true_eq] at this
    simp
    omega
  have hcut : zeros = 48 :: zeros.drop 1 := rfl
  rw [decimalDigit?, hcut, List.find?_cons]
  by_cases hd : c.isDigit = true
  · obtain ⟨h1, h2⟩ := isDigit_iff.mp hd
    simp [hd, h1, h2]
  · have : ¬ (48 ≤ c.toNat ∧ c.toNat ≤ 57) := fun hn => hd (isDigit_iff.mpr hn)
    have hno : (decide (48 ≤ c.toNat) && decide (c.toNat ≤ 48 + 9)) = false := by
      simp
      omega
    rw [hno, hlater, if_neg hd]
    rfl

theorem isDecimalDigit_of_lt {c : Char} (h : c.toNat < 1632) : isDecimalDigit c = c.isDigit := by
  rw [isDecimalDigit, decimalDigit?_of_lt h]
  cases c.isDigit <;> rfl

theorem isDecimalDigit_of_isDigit {c : Char} (h : c.isDigit = true) : isDecimalDigit c = true := by
  rw [isDecimalDigit_of_lt (by have := isDigit_iff.mp h; omega), h]

theorem digitBelow?_ten {c : Char} (h : c.isDigit = true) :
    digitBelow? 10 c = some (c.toNat - 48) := by
  have := isDigit_iff.mp h
  have hlt : c.toNat - 48 < 10 := by omega
  simp [digitBelow?, h, hlt]

/-! ## 2. Names -/

theorem isAlpha_iff {c : Char} : c.isAlpha = true ↔
    65 ≤ c.toNat ∧ c.toNat ≤ 90 ∨ 97 ≤ c.toNat ∧ c.toNat ≤ 122 := by
  change
    (decide (c.val ≥ 65 ∧ c.val ≤ 90) || decide (c.val ≥ 97) && decide (c.val ≤ 122)) = true ↔ _
  simp only [Bool.or_eq_true, Bool.and_eq_true, decide_eq_true_eq, ge_iff_le,
    UInt32.le_iff_toNat_le]
  exact Iff.rfl

theorem eq_underscore_iff {c : Char} : c = '_' ↔ c.toNat = 95 :=
  ⟨fun h => h ▸ rfl, fun h => Char.ext (UInt32.toNat_inj.mp h)⟩

theorem isIdentifierStart_iff {c : Char} : isIdentifierStart c = true ↔
    (65 ≤ c.toNat ∧ c.toNat ≤ 90 ∨ 97 ≤ c.toNat ∧ c.toNat ≤ 122) ∨ c.toNat = 95 := by
  simp only [isIdentifierStart, Bool.or_eq_true, decide_eq_true_eq, isAlpha_iff, eq_underscore_iff]

theorem isIdentifierPart_iff {c : Char} : isIdentifierPart c = true ↔
    ((65 ≤ c.toNat ∧ c.toNat ≤ 90 ∨ 97 ≤ c.toNat ∧ c.toNat ≤ 122) ∨
      48 ≤ c.toNat ∧ c.toNat ≤ 57) ∨ c.toNat = 95 := by
  simp only [isIdentifierPart, Char.isAlphanum, Bool.or_eq_true, decide_eq_true_eq, isAlpha_iff,
    isDigit_iff, eq_underscore_iff]

theorem contains_cons {low high n : Nat} {rest : Ranges} :
    Ranges.contains ((low, high) :: rest) n = true ↔
      low ≤ n ∧ (n ≤ high ∨ rest.contains n = true) := by
  rw [Ranges.contains]
  split
  · simp
    omega
  · simp
    omega

theorem isNamePart_of_isIdentifierPart {c : Char} (h : isIdentifierPart c = true) :
    isNamePart c = true := by
  have hcut : wordRanges = (48, 57) :: (65, 90) :: (95, 95) :: (97, 122) :: wordRanges.drop 4 := rfl
  have hn := isIdentifierPart_iff.mp h
  have hword : wordRanges.contains c.toNat = true := by
    rw [hcut, contains_cons, contains_cons, contains_cons, contains_cons]
    rcases hn with ((h | h) | h) | h
    · exact ⟨by omega, .inr ⟨by omega, .inl (by omega)⟩⟩
    · exact ⟨by omega, .inr ⟨by omega, .inr ⟨by omega, .inr ⟨by omega, .inl (by omega)⟩⟩⟩⟩
    · exact ⟨by omega, .inl (by omega)⟩
    · exact ⟨by omega, .inr ⟨by omega, .inr ⟨by omega, .inl (by omega)⟩⟩⟩
  rw [isNamePart, isWord, hword]
  rfl

theorem isIdentifierPart_of_isDigit {c : Char} (h : c.isDigit = true) :
    isIdentifierPart c = true :=
  isIdentifierPart_iff.mpr (.inl (.inr (isDigit_iff.mp h)))

theorem isIdentifierPart_of_start {c : Char} (h : isIdentifierStart c = true) :
    isIdentifierPart c = true :=
  isIdentifierPart_iff.mpr ((isIdentifierStart_iff.mp h).imp_left .inl)

theorem ne_of_isIdentifierPart {c d : Char} (h : isIdentifierPart c = true)
    (hd : isIdentifierPart d = false) : c ≠ d := by
  rintro rfl
  rw [h] at hd
  exact nomatch hd

theorem isDigit_of_isIdentifierStart {c : Char} (h : isIdentifierStart c = true) :
    c.isDigit = false := by
  have hs := isIdentifierStart_iff.mp h
  refine Bool.eq_false_iff.mpr fun hd => ?_
  have := isDigit_iff.mp hd
  omega

theorem exists_of_isIdentifier {t : Text} (h : isIdentifier t = true) :
    ∃ c rest, t = c :: rest ∧ isIdentifierStart c = true ∧ ∀ d ∈ t, isIdentifierPart d = true := by
  cases t with
  | nil => exact nomatch h
  | cons c rest =>
    simp only [isIdentifier, Bool.and_eq_true, List.all_eq_true] at h
    refine ⟨c, rest, rfl, h.1, fun d hd => ?_⟩
    rcases List.mem_cons.mp hd with rfl | hd
    · exact isIdentifierPart_of_start h.1
    · exact h.2 d hd

/-- What is read as an identifier is one, at the start of the text. -/
theorem isIdentifier_of_leadingIdentifier? {t name : Text} (h : leadingIdentifier? t = some name) :
    isIdentifier name = true ∧ name <+: t := by
  cases t with
  | nil => exact nomatch h
  | cons c rest =>
    rw [leadingIdentifier?] at h
    split at h
    · rename_i hstart
      obtain rfl := Option.some.inj h
      constructor
      · rw [isIdentifier, hstart, Bool.true_and]
        exact List.all_takeWhile
      · exact List.cons_prefix_cons.mpr ⟨rfl, List.takeWhile_prefix _⟩
    · exact nomatch h

/-- The code points of ranges, one by one. -/
theorem mem_of_contains {n : Nat} {ranges : Ranges} (h : ranges.contains n = true) :
    n ∈ ranges.flatMap fun (low, high) => List.range' low (high + 1 - low) := by
  induction ranges with
  | nil => exact nomatch h
  | cons range ranges ih =>
    obtain ⟨hlow, hrest⟩ := contains_cons.mp h
    rw [List.flatMap_cons, List.mem_append]
    exact hrest.imp (fun hhigh => List.mem_range'_1.mpr (by omega)) ih

/-- A part of a name is not blank. -/
theorem not_blank_of_isNamePart {c : Char} (h : isNamePart c = true) : isBlank c = false := by
  refine Bool.eq_false_iff.mpr fun hb => ?_
  have hblanks : (blankRanges.flatMap fun (low, high) => List.range' low (high + 1 - low)).all
      (fun n => !(wordRanges.contains n || joinerRanges.contains n)) = true := by
    decide +kernel
  have hnone := List.all_eq_true.mp hblanks _ (mem_of_contains hb)
  rw [isNamePart, isWord] at h
  rw [h] at hnone
  exact nomatch hnone

theorem not_blank_of_isIdentifierPart {c : Char} (h : isIdentifierPart c = true) :
    isBlank c = false :=
  not_blank_of_isNamePart (isNamePart_of_isIdentifierPart h)

/-! ## 3. The digits of a number -/

theorem isDigit_of_mem_toDigits {n : Nat} {c : Char} (h : c ∈ Nat.toDigits 10 n) :
    c.isDigit = true :=
  Nat.isDigit_of_mem_toDigits (by decide) (by decide) h

/-- A number other than zero is not written with a zero in front. -/
theorem head?_toDigits {n : Nat} (hn : 0 < n) : (Nat.toDigits 10 n).head? ≠ some '0' := by
  induction n using Nat.strongRecOn with
  | ind n ih =>
    by_cases h : n < 10
    · rw [Nat.toDigits_of_lt_base h, List.head?_cons]
      have hall : (List.range 10).all (fun n => n = 0 || n.digitChar ≠ '0') = true := by decide
      have := List.all_eq_true.mp hall n (List.mem_range.mpr h)
      simp at this
      simp
      omega
    · rw [Nat.toDigits_of_base_le (by decide) (by omega), List.head?_append]
      obtain ⟨c, rest, hcut⟩ :=
        List.exists_cons_of_ne_nil (Nat.toDigits_ne_nil (n := n / 10) (b := 10))
      have := ih (n / 10) (by omega) (by omega)
      rw [hcut] at this ⊢
      exact this

theorem digitBelow?_eight {c : Char} (hc : '0' ≤ c ∧ c ≤ '7') :
    digitBelow? 8 c = some (c.toNat - 48) := by
  have hlow : 48 ≤ c.toNat := hc.1
  have hhigh : c.toNat ≤ 55 := hc.2
  have hdigit : c.isDigit = true := isDigit_iff.mpr ⟨hlow, by omega⟩
  have hlt : c.toNat - 48 < 8 := by omega
  simp [digitBelow?, hdigit, hlt]

/-- The number of a text of digits to a base. -/
theorem ofDigits_filterMap {base : Nat} {t : Text}
    (h : ∀ c ∈ t, digitBelow? base c = some (c.toNat - 48)) :
    ofDigits base (t.filterMap (digitBelow? base)) = Nat.ofDigitChars base t 0 := by
  have hgen : ∀ (t : Text) (init : Nat), (∀ c ∈ t, digitBelow? base c = some (c.toNat - 48)) →
      (t.filterMap (digitBelow? base)).foldl (fun value digit => value * base + digit) init
        = Nat.ofDigitChars base t init := by
    intro t
    induction t with
    | nil => intro init _; rfl
    | cons c t ih =>
      intro init h
      rw [List.filterMap_cons_some (h c List.mem_cons_self), List.foldl_cons,
        ih _ fun d hd => h d (List.mem_cons_of_mem c hd), Nat.ofDigitChars_cons, Nat.mul_comm]
      rfl
  exact hgen t 0 h

theorem ofDigits_digits {t : Text} (h : ∀ c ∈ t, c.isDigit = true) :
    ofDigits 10 (t.filterMap (digitBelow? 10)) = Nat.ofDigitChars 10 t 0 :=
  ofDigits_filterMap fun c hc => digitBelow?_ten (h c hc)

end ViewContract.Text
