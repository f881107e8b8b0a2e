/-
ViewContract.Proofs.Number.Grouped — integers as they are written in digits.

An integer in digits, perhaps with single underscores between them, goes through three readers. The
first takes octal numbers in the old spelling. The second takes decimals, but none beyond the limit
of digits and none that begin with zero, zero itself apart. Whatever is left gets to the third,
which reads doubles and takes any digits. So such a text is always read, and not always as an
integer (`read_grouped`).

  §1 grouped digits.
  §2 the readers of digits.
  §3 integers, in decimal and in the old spelling.
  §4 literals (`groupedLiteral`).
  §5 natural numbers in decimal, which are read back (`readInt?_toDigits`, `read_digits`).
-/
import ViewContract.Proofs.Number.Overflow
import ViewContract.Proofs.Number.Signed

namespace ViewContract.Number

open ViewContract.Text

/-! ## 1. Grouped digits -/

/-- Digits with single underscores between them, at least one. -/
inductive Grouped : Text → Prop where
  | last {c : Char} (hc : c.isDigit = true) : Grouped [c]
  | next {c : Char} {t : Text} (hc : c.isDigit = true) (ht : Grouped t) : Grouped (c :: t)
  | apart {c : Char} {t : Text} (hc : c.isDigit = true) (ht : Grouped t) : Grouped (c :: '_' :: t)

/-- The digits of a text. -/
def digitsIn (t : Text) : Text :=
  t.filter Char.isDigit

theorem digitsIn_cons_digit {c : Char} (hc : c.isDigit = true) (t : Text) :
    digitsIn (c :: t) = c :: digitsIn t :=
  List.filter_cons_of_pos hc

theorem digitsIn_cons_underscore (t : Text) : digitsIn ('_' :: t) = digitsIn t :=
  rfl

theorem isDigit_of_mem_digitsIn {t : Text} {c : Char} (h : c ∈ digitsIn t) : c.isDigit = true :=
  (List.mem_filter.mp h).2

theorem grouped_digits {ds : Text} (hds : ∀ c ∈ ds, c.isDigit = true) (hne : ds ≠ []) :
    Grouped ds := by
  induction ds with
  | nil => exact absurd rfl hne
  | cons c ds ih =>
    obtain ⟨hc, hds⟩ := List.forall_mem_cons.mp hds
    cases ds with
    | nil => exact .last hc
    | cons d ds => exact .next hc (ih hds (List.cons_ne_nil d ds))

namespace Grouped

variable {t : Text}

theorem mem (ht : Grouped t) {c : Char} (h : c ∈ t) : c.isDigit = true ∨ c = '_' := by
  induction ht with
  | last hd => exact .inl (List.mem_singleton.mp h ▸ hd)
  | next hd _ ih =>
    rcases List.mem_cons.mp h with rfl | h
    · exact .inl hd
    · exact ih h
  | apart hd _ ih =>
    rcases List.mem_cons.mp h with rfl | h
    · exact .inl hd
    · rcases List.mem_cons.mp h with rfl | h
      · exact .inr rfl
      · exact ih h

theorem exists_head (ht : Grouped t) : ∃ c rest, t = c :: rest ∧ c.isDigit = true := by
  cases ht with
  | last hc => exact ⟨_, _, rfl, hc⟩
  | next hc _ => exact ⟨_, _, rfl, hc⟩
  | apart hc _ => exact ⟨_, _, rfl, hc⟩

/-- The first digit is the first character. -/
theorem exists_digitsIn (ht : Grouped t) :
    ∃ c digits, digitsIn t = c :: digits ∧ t.head? = some c ∧ c.isDigit = true := by
  obtain ⟨c, rest, rfl, hc⟩ := ht.exists_head
  exact ⟨c, digitsIn rest, digitsIn_cons_digit hc rest, rfl, hc⟩

theorem not_blank (ht : Grouped t) {c : Char} (h : c ∈ t) : isBlank c = false := by
  rcases ht.mem h with hc | rfl
  · exact not_blank_of_isDecimalDigit (isDecimalDigit_of_isDigit hc)
  · decide

theorem unsigned (ht : Grouped t) : Unsigned t := by
  obtain ⟨c, rest, hcut, hc⟩ := ht.exists_head
  exact ⟨⟨c, rest, hcut, .inl (isDecimalDigit_of_isDigit hc)⟩,
    fun d hd => ht.not_blank (List.mem_of_getLast? hd)⟩

end Grouped

/-! ## 2. Digits -/

section digits

variable {t : Text}

theorem plainDigits_grouped (ht : Grouped t) : plainDigits t = t := by
  unfold plainDigits
  refine (List.map_congr_left fun c hc => ?_).trans (List.map_id t)
  rcases ht.mem hc with hdigit | rfl
  · exact plainDigit_eq c (.inl hdigit)
  · rfl

/-- A digit is read wherever it stands, and after it the rest. -/
theorem groupedDigits?_cons_digit {c : Char} (hc : c.isDigit = true) (afterDigit : Bool)
    (t : Text) :
    groupedDigits? 10 afterDigit (c :: t)
      = (groupedDigits? 10 true t).map ((c.toNat - 48) :: ·) := by
  rw [groupedDigits?.eq_def]
  split
  · rename_i heq
    exact nomatch heq
  · rename_i heq
    obtain ⟨rfl, -⟩ := List.cons.inj heq
    exact absurd hc (by decide)
  · rename_i d rest _ heq
    obtain ⟨rfl, rfl⟩ := List.cons.inj heq
    rw [digitBelow?_ten hc]
    cases groupedDigits? 10 true t <;> rfl

theorem groupedDigits?_grouped (ht : Grouped t) (afterDigit : Bool) :
    groupedDigits? 10 afterDigit t = some ((digitsIn t).filterMap (digitBelow? 10)) := by
  induction ht generalizing afterDigit with
  | @last c hc =>
    have hvalue : [c].filterMap (digitBelow? 10) = [c.toNat - 48] :=
      List.filterMap_cons_some (digitBelow?_ten hc)
    have hdigits : digitsIn [c] = [c] := digitsIn_cons_digit hc []
    rw [groupedDigits?_cons_digit hc, hdigits, hvalue]
    rfl
  | next hc _ ih =>
    rw [groupedDigits?_cons_digit hc, digitsIn_cons_digit hc,
      List.filterMap_cons_some (digitBelow?_ten hc), ih, Option.map_some]
  | @apart c t hc _ ih =>
    have hunderscore : groupedDigits? 10 true ('_' :: t) = groupedDigits? 10 false t := rfl
    rw [groupedDigits?_cons_digit hc, digitsIn_cons_digit hc, digitsIn_cons_underscore,
      List.filterMap_cons_some (digitBelow?_ten hc), hunderscore, ih, Option.map_some]

theorem dropUnderscores?_cons_digit {c : Char} (hc : c.isDigit = true) (previous : Option Char)
    (t : Text) :
    dropUnderscores? previous (c :: t) = (dropUnderscores? (some c) t).map (c :: ·) := by
  have hne : c ≠ '_' := by
    rintro rfl
    exact absurd hc (by decide)
  simp [dropUnderscores?]

theorem dropUnderscores?_grouped (ht : Grouped t) (previous : Option Char) :
    dropUnderscores? previous t = some (digitsIn t) := by
  induction ht generalizing previous with
  | @last c hc =>
    have hdigits : digitsIn [c] = [c] := digitsIn_cons_digit hc []
    rw [dropUnderscores?_cons_digit hc, hdigits]
    rfl
  | next hc _ ih => rw [dropUnderscores?_cons_digit hc, digitsIn_cons_digit hc, ih, Option.map_some]
  | @apart c t hc ht ih =>
    -- the underscore stands between this digit and the next
    obtain ⟨d, rest, rfl, hd⟩ := ht.exists_head
    have hunderscore : dropUnderscores? (some c) ('_' :: d :: rest)
        = dropUnderscores? (some '_') (d :: rest) := by
      simp [dropUnderscores?, hc, hd]
    rw [dropUnderscores?_cons_digit hc, digitsIn_cons_digit hc, digitsIn_cons_underscore,
      hunderscore, ih, Option.map_some]

/-- Digits without a point and an exponent are read as the nearest double. -/
theorem readDecimal?_digits {ds : Text} (hds : ∀ c ∈ ds, c.isDigit = true) (hne : ds ≠ [])
    (negative : Bool) :
    readDecimal? negative ds = some (Binary64.ofDecimal negative (Nat.ofDigitChars 10 ds 0) 0) := by
  obtain ⟨htake, hdrop⟩ := takeWhile_digits hds (t := []) rfl
  rw [List.append_nil] at htake hdrop
  have hempty : ds.isEmpty = false := by simpa using hne
  rw [readDecimal?, htake, hdrop]
  simp [hempty, readExponent?, ofDigits_digits hds]

theorem readDouble?_grouped (ht : Grouped t) :
    readDouble? t = some (Binary64.ofDecimal false (Nat.ofDigitChars 10 (digitsIn t) 0) 0) := by
  obtain ⟨c, digits, hcut, _, hc⟩ := ht.exists_digitsIn
  have hplain : dropUnderscores? none (plainDigits t) = some (c :: digits) := by
    rw [plainDigits_grouped ht, dropUnderscores?_grouped ht, hcut]
  have hdigits : ∀ d ∈ digitsIn t, d.isDigit = true := fun d => isDigit_of_mem_digitsIn
  have hne : digitsIn t ≠ [] := by
    rw [hcut]
    exact List.cons_ne_nil c digits
  rw [readDouble?_of_digit hc hplain, ← hcut, readDecimal?_digits hdigits hne]

end digits

/-! ## 3. Integers -/

/-- An octal number in the old spelling: a zero and more octal digits. -/
def OldOctal (t : Text) : Prop :=
  t.head? = some '0' ∧ 2 ≤ t.length ∧ ∀ c ∈ t, '0' ≤ c ∧ c ≤ '7'

/-- A decimal that is taken for an integer: not beyond the limit of digits, and with a zero in front
only if it is zero. -/
def PlainDecimal (t : Text) : Prop :=
  (digitsIn t).length ≤ digitLimit ∧
    (t.head? = some '0' → Nat.ofDigitChars 10 (digitsIn t) 0 = 0)

instance (t : Text) : Decidable (OldOctal t) :=
  decidable_of_iff (t.head? = some '0' ∧ 2 ≤ t.length ∧
    (t.all fun c => '0' ≤ c && c ≤ '7') = true) (by simp [OldOctal])

instance (t : Text) : Decidable (PlainDecimal t) :=
  inferInstanceAs (Decidable (_ ∧ (_ → _)))

section integers

variable {t : Text}

theorem isOldOctal_iff (ht : Signless t) : isOldOctal t = true ↔ OldOctal t := by
  rw [isOldOctal, splitSign_of_signless ht, OldOctal]
  dsimp only
  split
  · simp
  · rename_i hnot
    refine iff_of_false Bool.false_ne_true ?_
    rintro ⟨hhead, hlength, -⟩
    obtain ⟨rest, rfl⟩ := List.head?_eq_some_iff.mp hhead
    cases rest with
    | nil => simp at hlength
    | cons c rest => exact hnot c rest rfl

theorem readOldOctal_eq (hsign : Signless t) (ht : OldOctal t) :
    readOldOctal t = Nat.ofDigitChars 8 t 0 := by
  have hvalue : ofDigits 8 (t.filterMap (digitBelow? 8)) = Nat.ofDigitChars 8 t 0 :=
    ofDigits_filterMap fun c hc => digitBelow?_eight (ht.2.2 c hc)
  rw [readOldOctal, splitSign_of_signless hsign]
  simp [hvalue]

/-- A prefix would have a letter in it. -/
theorem splitBase_grouped (ht : Grouped t) : splitBase t = (10, t) := by
  rw [splitBase.eq_def]
  split
  · rename_i c rest
    have hletter : c.isAlpha = false := by
      rcases ht.mem (List.mem_cons_of_mem _ List.mem_cons_self) with hc | rfl
      · rw [Bool.eq_false_iff]
        intro halpha
        have hdigit := isDigit_iff.mp hc
        have hcases := isAlpha_iff.mp halpha
        omega
      · rfl
    have hne : ∀ letter : Char, letter.isAlpha = true → c ≠ letter := by
      rintro letter halpha rfl
      rw [hletter] at halpha
      exact nomatch halpha
    simp [hne 'x' rfl, hne 'X' rfl, hne 'o' rfl, hne 'O' rfl, hne 'b' rfl, hne 'B' rfl]
  · rfl

theorem length_filterMap_digits {ds : Text} (hds : ∀ c ∈ ds, c.isDigit = true) :
    (ds.filterMap (digitBelow? 10)).length = ds.length := by
  rw [List.length_filterMap_eq_countP, List.countP_eq_length.mpr]
  intro d hd
  rw [digitBelow?_ten (hds d hd)]
  rfl

theorem head?_filterMap_digits {c : Char} (hc : c.isDigit = true) (ds : Text) :
    ((c :: ds).filterMap (digitBelow? 10)).head? = some 0 ↔ c = '0' := by
  rw [List.filterMap_cons_some (digitBelow?_ten hc), List.head?_cons, Option.some.injEq]
  have hrange := isDigit_iff.mp hc
  constructor
  · intro h
    exact Char.ext (UInt32.toNat_inj.mp (show c.toNat = 48 by omega))
  · rintro rfl
    rfl

theorem readNat?_grouped (ht : Grouped t) :
    readNat? t = if PlainDecimal t then some (Nat.ofDigitChars 10 (digitsIn t) 0) else none := by
  have hdigits : ∀ c ∈ digitsIn t, c.isDigit = true := fun c => isDigit_of_mem_digitsIn
  have hzero : ((digitsIn t).filterMap (digitBelow? 10)).head? = some 0 ↔ t.head? = some '0' := by
    obtain ⟨c, digits, hcut, hhead, hc⟩ := ht.exists_digitsIn
    rw [hcut, head?_filterMap_digits hc, hhead, Option.some.injEq]
  simp only [readNat?, splitBase_grouped ht, groupedDigits?_grouped ht, Option.bind_eq_bind,
    Option.bind_some, if_true, ofDigits_digits hdigits, length_filterMap_digits hdigits, hzero]
  by_cases hplain : PlainDecimal t
  · rw [if_pos hplain, if_neg (Nat.not_lt.mpr hplain.1), if_neg (by simpa using hplain.2)]
  · rw [if_neg hplain]
    split
    · rfl
    · rename_i hlimit
      have hnonzero : ¬ (t.head? = some '0' → Nat.ofDigitChars 10 (digitsIn t) 0 = 0) :=
        fun h => hplain ⟨Nat.not_lt.mp hlimit, h⟩
      rw [if_pos (by simpa using hnonzero)]

theorem readInt?_grouped (ht : Grouped t) :
    readInt? t =
      if PlainDecimal t then some (Nat.ofDigitChars 10 (digitsIn t) 0 : ℤ) else none := by
  rw [readInt?, plainDigits_grouped ht, splitSign_of_signless ht.unsigned.signless]
  by_cases hplain : PlainDecimal t <;> simp [readNat?_grouped ht, hplain]

end integers

/-! ## 4. Literals -/

/-- What grouped digits are read as: an octal number in the old spelling, a plain decimal, or else
the double nearest to the decimal, which is infinite if there is none. -/
def groupedLiteral (t : Text) : Literal :=
  if OldOctal t then .int (Nat.ofDigitChars 8 t 0)
  else if PlainDecimal t then .int (Nat.ofDigitChars 10 (digitsIn t) 0)
  else .float ((Binary64.ofInt? (Nat.ofDigitChars 10 (digitsIn t) 0)).getD (.infinite false))

section literals

variable {t : Text}

theorem beginsNumeric_grouped (ht : Grouped t) : beginsNumeric t = true := by
  obtain ⟨c, rest, rfl, hc⟩ := ht.exists_head
  have hsign : (decide (c = '+') || decide (c = '-')) = false := by
    have hne : c ≠ '+' ∧ c ≠ '-' := by
      constructor <;> rintro rfl <;> exact absurd hc (by decide)
    simpa using hne
  rw [beginsNumeric, List.dropWhile_cons_of_neg (by simp [hsign])]
  simp [hc]

/-- **Grouped digits are read**: as an integer if they are octal in the old spelling or a plain
decimal, and as a double otherwise. -/
theorem read_grouped (ht : Grouped t) : Literal.read t = .ok (groupedLiteral t) := by
  have htrim : trim t = t := trim_signed (.inl rfl) ht.unsigned
  have hsign := ht.unsigned.signless
  unfold Literal.read groupedLiteral
  dsimp only
  rw [htrim, readInt?_grouped ht, beginsNumeric_grouped ht, readDouble?_grouped ht, ofDecimal_zero]
  by_cases hoctal : OldOctal t
  · rw [if_pos hoctal, if_pos ((isOldOctal_iff hsign).mpr hoctal), readOldOctal_eq hsign hoctal]
  · rw [if_neg hoctal, if_neg (mt (isOldOctal_iff hsign).mp hoctal)]
    by_cases hplain : PlainDecimal t
    · rw [if_pos hplain, if_pos hplain]
    · rw [if_neg hplain, if_neg hplain]
      rfl

theorem signed_int (sign : Text) (n : ℤ) :
    (Literal.int n).signed sign = .int (if sign = ['-'] then -n else n) := by
  rw [Literal.signed]
  split <;> rfl

theorem signed_float (sign : Text) (x : Binary64) :
    (Literal.float x).signed sign = .float (if sign = ['-'] then x.neg else x) := by
  rw [Literal.signed]
  split <;> rfl

/-- Which grouped digits are integers. -/
theorem exists_int_groupedLiteral (sign t : Text) :
    (∃ n, (groupedLiteral t).signed sign = .int n) ↔ OldOctal t ∨ PlainDecimal t := by
  unfold groupedLiteral
  split
  · rename_i hoctal
    exact iff_of_true ⟨_, signed_int sign _⟩ (.inl hoctal)
  · rename_i hoctal
    split
    · rename_i hplain
      exact iff_of_true ⟨_, signed_int sign _⟩ (.inr hplain)
    · rename_i hplain
      refine iff_of_false ?_ (not_or.mpr ⟨hoctal, hplain⟩)
      rintro ⟨n, hn⟩
      rw [signed_float] at hn
      cases hn

end literals

/-! ## 5. Natural numbers in decimal -/

section decimal

theorem grouped_toDigits (n : ℕ) : Grouped (Nat.toDigits 10 n) :=
  grouped_digits (fun _ => isDigit_of_mem_toDigits) Nat.toDigits_ne_nil

theorem unsigned_digits (n : ℕ) : Unsigned (Nat.toDigits 10 n) :=
  (grouped_toDigits n).unsigned

theorem digitsIn_toDigits (n : ℕ) : digitsIn (Nat.toDigits 10 n) = Nat.toDigits 10 n :=
  List.filter_eq_self.mpr fun _ => isDigit_of_mem_toDigits

/-- Zero alone is written with a zero in front. -/
theorem eq_zero_of_head? {n : ℕ} (h : (Nat.toDigits 10 n).head? = some '0') : n = 0 :=
  Nat.eq_zero_of_not_pos fun hn => head?_toDigits hn h

theorem not_oldOctal_toDigits (n : ℕ) : ¬ OldOctal (Nat.toDigits 10 n) := by
  rintro ⟨hhead, hlength, -⟩
  rw [eq_zero_of_head? hhead] at hlength
  exact absurd hlength (by decide)

theorem plainDecimal_toDigits {n : ℕ} (h : decimalLength n ≤ digitLimit) :
    PlainDecimal (Nat.toDigits 10 n) := by
  rw [PlainDecimal, digitsIn_toDigits, Nat.ofDigitChars_ten_toDigits]
  exact ⟨h, eq_zero_of_head?⟩

/-- A natural number in decimal is read back, within the limit of digits. -/
theorem readInt?_toDigits {n : ℕ} (h : decimalLength n ≤ digitLimit) :
    readInt? (Nat.toDigits 10 n) = some (n : ℤ) := by
  rw [readInt?_grouped (grouped_toDigits n), if_pos (plainDecimal_toDigits h), digitsIn_toDigits,
    Nat.ofDigitChars_ten_toDigits]

theorem read_digits {n : ℕ} (h : decimalLength n ≤ digitLimit) :
    Literal.read (Nat.toDigits 10 n) = .ok (.int n) := by
  rw [read_grouped (grouped_toDigits n), groupedLiteral, if_neg (not_oldOctal_toDigits n),
    if_pos (plainDecimal_toDigits h), digitsIn_toDigits, Nat.ofDigitChars_ten_toDigits]

end decimal

end ViewContract.Number
