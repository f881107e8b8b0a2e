/-
ViewContract.Proofs.Signature.Number — the characters of a number token.

A number token is digits behind a prefix, or a decimal with underscores, a point and an
exponent. Whatever it is, it begins with a digit or a point and has only digits, letters,
underscores, points and signs in it; so no blank, parenthesis or line break ends it early when
the same text stands in a doc comment.

  §1 the characters of a number.
  §2 its pieces: runs of digits, prefixes, a point, an exponent.
  §3 number tokens (`NumberToken`).
-/
import ViewContract.Proofs.Number.Signed
import ViewContract.Proofs.Signature.Lexeme

namespace ViewContract.Signature

open ViewContract.Text

/-! ## 1. Characters -/

/-- A character that a number can have: a digit of some script, a letter, an underscore, a point
or a sign. -/
def IsNumberChar (c : Char) : Prop :=
  isDecimalDigit c = true ∨ c.isAlpha = true ∨ c ∈ ['_', '.', '+', '-']

theorem IsNumberChar.not_blank {c : Char} (h : IsNumberChar c) : isBlank c = false := by
  rcases h with hdigit | halpha | hmark
  · exact not_blank_of_isDecimalDigit hdigit
  · exact not_blank_of_isIdentifierPart
      (isIdentifierPart_iff.mpr (.inl (.inl (isAlpha_iff.mp halpha))))
  · have hmarks : ∀ c ∈ ['_', '.', '+', '-'], isBlank c = false := forall_mem_of_all (by decide)
    exact hmarks c hmark

/-- No number has a parenthesis in it. -/
theorem IsNumberChar.ne_paren {c : Char} (h : IsNumberChar c) : c ≠ ')' := by
  rintro rfl
  rcases h with h | h | h <;> exact absurd h (by decide)

/-! ## 2. Pieces -/

/-- A text of the characters of numbers. -/
def Numeric (t : Text) : Prop :=
  ∀ c ∈ t, IsNumberChar c

theorem numeric_nil : Numeric [] :=
  fun _ hc => absurd hc List.not_mem_nil

theorem numeric_append {s t : Text} (hs : Numeric s) (ht : Numeric t) : Numeric (s ++ t) :=
  fun c hc => (List.mem_append.mp hc).elim (hs c) (ht c)

theorem numeric_take_add {t : Text} {m n : Nat} (hm : Numeric (t.take m))
    (hn : Numeric ((t.drop m).take n)) : Numeric (t.take (m + n)) := by
  rw [List.take_add]
  exact numeric_append hm hn

theorem numeric_cons {c : Char} {t : Text} (hc : IsNumberChar c) (ht : Numeric t) :
    Numeric (c :: t) :=
  List.forall_mem_cons.mpr ⟨hc, ht⟩

/-- A run of characters of one class. -/
theorem numeric_takeWhile {p : Char → Bool} (hp : ∀ c, p c = true → IsNumberChar c) (t : Text) :
    Numeric (t.take (t.takeWhile p).length) := by
  rw [← List.prefix_iff_eq_take.mp (List.takeWhile_prefix p)]
  exact fun c hc => hp c (List.mem_takeWhile_imp hc)

theorem isNumberChar_of_isHexDigit {c : Char} (h : isHexDigit c = true) : IsNumberChar c := by
  by_cases hdigit : c.isDigit = true
  · exact .inl (isDecimalDigit_of_isDigit hdigit)
  · refine .inr (.inl (isAlpha_iff.mpr ?_))
    simp only [isHexDigit, digitBelow?, if_neg hdigit] at h
    split at h
    · rename_i hlower
      have hrange : 'a' ≤ c ∧ c ≤ 'f' := by simpa using hlower
      have hfirst : 97 ≤ c.toNat := hrange.1
      have hlast : c.toNat ≤ 102 := hrange.2
      omega
    · split at h
      · rename_i hupper
        have hrange : 'A' ≤ c ∧ c ≤ 'F' := by simpa using hupper
        have hfirst : 65 ≤ c.toNat := hrange.1
        have hlast : c.toNat ≤ 70 := hrange.2
        omega
      · cases h

/-- A prefix ends with a letter. -/
theorem isAlpha_of_toLower {c letter : Char} (hletter : letter.isAlpha = true)
    (h : c.toLower = letter) : c.isAlpha = true := by
  by_contra hc
  rw [toLower_eq_self (by simpa using hc)] at h
  exact hc (h ▸ hletter)

theorem numeric_prefixed {letter : Char} {isDigit : Char → Bool} {t : Text} {n : Nat}
    (hletter : letter.isAlpha = true) (hdigit : ∀ c, isDigit c = true → IsNumberChar c)
    (h : prefixedLength? letter isDigit t = some n) : Numeric (t.take n) := by
  rw [prefixedLength?.eq_def] at h
  split at h
  · rename_i c rest
    dsimp only at h
    split at h
    · rename_i hcond
      obtain rfl := Option.some.inj h
      have hc : c.toLower = letter := by simp at hcond; exact hcond.1
      refine numeric_cons (.inl (by decide))
        (numeric_cons (.inr (.inl (isAlpha_of_toLower hletter hc)))
        (numeric_takeWhile (fun d hd => ?_) rest))
      rcases Bool.or_eq_true_iff.mp hd with hd | hd
      · exact hdigit d hd
      · obtain rfl : d = '_' := by simpa using hd
        exact .inr (.inr (by decide))
    · cases h
  · cases h

theorem numeric_digitRun (t : Text) : Numeric (t.take (digitRun t)) := by
  cases t with
  | nil => exact numeric_nil
  | cons c rest =>
    rw [digitRun]
    split
    · rw [Nat.add_comm]
      refine numeric_cons (.inl ‹_›) (numeric_takeWhile (fun d hd => ?_) rest)
      rcases Bool.or_eq_true_iff.mp hd with hd | hd
      · exact .inl hd
      · obtain rfl : d = '_' := by simpa using hd
        exact .inr (.inr (by decide))
    · exact numeric_nil

/-- An exponent is a letter, a sign or none, and digits. -/
theorem exponentLength_cons (e : Char) (rest : Text) :
    exponentLength (e :: rest) = 0 ∨ (e = 'e' ∨ e = 'E') ∧ ∃ sign, Numeric (rest.take sign) ∧
      exponentLength (e :: rest)
        = sign + ((rest.drop sign).takeWhile isDecimalDigit).length + 1 := by
  by_cases he : e = 'e' ∨ e = 'E'
  · obtain ⟨sign, hnumeric, hlength⟩ : ∃ sign, Numeric (rest.take sign) ∧
        exponentLength (e :: rest) =
          if 0 < ((rest.drop sign).takeWhile isDecimalDigit).length then
            1 + sign + ((rest.drop sign).takeWhile isDecimalDigit).length else 0 := by
      cases rest with
      | nil => exact ⟨0, numeric_nil, by simp [exponentLength]⟩
      | cons c rest =>
        by_cases hc : c = '+' ∨ c = '-'
        · refine ⟨1, numeric_cons (.inr (.inr ?_)) numeric_nil, by simp [exponentLength, he, hc]⟩
          rcases hc with rfl | rfl <;> decide
        · exact ⟨0, numeric_nil, by simp [exponentLength, he, hc]⟩
    rw [hlength]
    split
    · exact .inr ⟨he, sign, hnumeric, by omega⟩
    · exact .inl rfl
  · exact .inl (by simp [exponentLength, he])

theorem numeric_exponent (t : Text) : Numeric (t.take (exponentLength t)) := by
  cases t with
  | nil => exact numeric_nil
  | cons e rest =>
    rcases exponentLength_cons e rest with hlength | ⟨he, sign, hsign, hlength⟩
    · rw [hlength]
      exact numeric_nil
    · have hletter : IsNumberChar e := by
        rcases he with rfl | rfl <;> exact .inr (.inl (by decide))
      rw [hlength]
      exact numeric_cons hletter
        (numeric_take_add hsign (numeric_takeWhile (fun _ hd => .inl hd) _))

/-- The point of a decimal, and what stands behind it. -/
theorem numeric_point {t : Text} {m n : Nat} (hm : Numeric (t.take m)) {rest : Text}
    (hpoint : t.drop m = '.' :: rest) (hn : Numeric (rest.take n)) :
    Numeric (t.take (m + 1 + n)) := by
  rw [Nat.add_assoc]
  refine numeric_take_add hm ?_
  rw [hpoint, Nat.add_comm]
  exact numeric_cons (.inr (.inr (by decide))) hn

theorem numeric_pointed {t : Text} {n : Nat} (h : pointedLength? t = some n) :
    Numeric (t.take n) := by
  rw [pointedLength?] at h
  split at h
  · rename_i rest hpoint
    dsimp only at h
    split at h
    · cases h
    · obtain rfl := Option.some.inj h
      exact numeric_take_add (numeric_point (numeric_digitRun t) hpoint (numeric_digitRun rest))
        (numeric_exponent _)
  · cases h

theorem numeric_whole {t : Text} {n : Nat} (h : wholeLength? t = some n) : Numeric (t.take n) := by
  rw [wholeLength?] at h
  dsimp only at h
  split at h
  · cases h
  · obtain rfl := Option.some.inj h
    refine numeric_take_add ?_ (numeric_exponent _)
    split
    · exact numeric_point (n := 0) (numeric_digitRun t) ‹_› (by simp [Numeric])
    · exact numeric_digitRun t

/-- The characters of a number. -/
theorem numeric_number {t : Text} {n : Nat} (h : numberLength? t = some n) :
    Numeric (t.take n) := by
  have hbinary : ∀ c, (decide (c = '0') || decide (c = '1')) = true → IsNumberChar c := by
    intro c hc
    have hcases : c = '0' ∨ c = '1' := by simpa using hc
    rcases hcases with rfl | rfl <;> exact .inl (by decide)
  have hoctal : ∀ c, (decide ('0' ≤ c) && decide (c ≤ '7')) = true → IsNumberChar c := by
    intro c hc
    have hrange : '0' ≤ c ∧ c ≤ '7' := by simpa using hc
    exact .inl (isDecimalDigit_of_isDigit (isDigit_iff.mpr
      ⟨hrange.1, (show c.toNat ≤ 55 from hrange.2).trans (by omega)⟩))
  simp only [numberLength?, Option.orElse_eq_some] at h
  rcases h with h | ⟨-, h | ⟨-, h | ⟨-, h | ⟨-, h⟩⟩⟩⟩
  · exact numeric_prefixed (by decide) (fun _ => isNumberChar_of_isHexDigit) h
  · exact numeric_prefixed (by decide) hbinary h
  · exact numeric_prefixed (by decide) hoctal h
  · exact numeric_pointed h
  · exact numeric_whole h

/-! ## 3. Number tokens -/

theorem numeric_sign {sign : Text} (hsign : Number.IsSign sign) : Numeric sign := by
  rcases hsign with rfl | rfl | rfl
  · exact numeric_nil
  · exact numeric_cons (.inr (.inr (by decide))) numeric_nil
  · exact numeric_cons (.inr (.inr (by decide))) numeric_nil

/-- A text that is a single number token. -/
def NumberToken (t : Text) : Prop :=
  tokenLength? t = some (.number, t.length)

instance (t : Text) : Decidable (NumberToken t) :=
  inferInstanceAs (Decidable (_ = _))

theorem numberLength?_of_token {t : Text} {n : Nat} (h : tokenLength? t = some (.number, n)) :
    numberLength? t = some n := by
  obtain ⟨⟨kind, length?⟩, hmem, hlength⟩ := List.exists_of_findSome?_eq_some h
  simp only [matchers, List.mem_cons, Prod.mk.injEq, List.not_mem_nil, or_false] at hmem
  obtain ⟨length, hlength, hpair⟩ := Option.map_eq_some_iff.mp hlength
  obtain ⟨rfl, rfl⟩ := Prod.mk.inj hpair
  have hnumber : length? = numberLength? := by simpa using hmem
  rwa [← hnumber]

namespace NumberToken

variable {t : Text}

theorem numeric (h : NumberToken t) : Numeric t := by
  have hnumeric := numeric_number (numberLength?_of_token h)
  rwa [List.take_length] at hnumeric

/-- A number token begins like a number without a sign. -/
theorem unsigned (h : NumberToken t) : Number.Unsigned t := by
  refine ⟨?_, fun c hc => (h.numeric c (List.mem_of_getLast? hc)).not_blank⟩
  cases t with
  | nil => exact nomatch (show tokenLength? [] = some (.number, 0) from h)
  | cons c rest =>
    refine ⟨c, rest, rfl, ?_⟩
    by_contra hnot
    push Not at hnot
    have hnone : numberLength? (c :: rest) = none :=
      numberLength?_of_not_digit (by simpa using hnot.1) hnot.2
    rw [numberLength?_of_token h] at hnone
    exact nomatch hnone

/-- A number token at the end of a text. -/
theorem reads (h : NumberToken t) : Lexeme.Reads ⟨.number, t⟩ [] := by
  obtain ⟨c, rest, hcut, _⟩ := h.unsigned.head
  refine ⟨⟨c, rest, hcut, ?_⟩, by rwa [List.append_nil]⟩
  exact (h.numeric c (by rw [hcut]; exact List.mem_cons_self)).not_blank

end NumberToken

/-- Digits with underscores between them are a number token. -/
theorem numberToken_grouped {t : Text} (ht : Number.Grouped t) : NumberToken t := by
  have htoken := tokenLength?_grouped ht (show Ends [] from nofun)
  rwa [List.append_nil] at htoken

end ViewContract.Signature
