/-
ViewContract.Proofs.Number.Spelling — numbers as they are written.

A written double is a `Spelling`: digits, perhaps a point with more digits, perhaps an
exponent, and at least one of the two. Both ways through a text meet in it:

  §1 spellings.
  §2 a spelling is read as the double nearest to its decimal (`readDouble?_spelling`).
  §3 the layout writes a decimal as a spelling of the same value (`exists_spelling`).
  §4 so the text of a double in normal form is read as that double
     (`exists_spelling_of_normal`).

In §3 the digits need not be the same ones: a whole number is written with a zero behind
the point.
-/
import ViewContract.Number.Reader
import ViewContract.Proofs.Number.Shortest
import ViewContract.Proofs.Text.Ascii

namespace ViewContract.Number

open ViewContract.Text

/-! ## 1. Spellings -/

/-- The fraction of a number: a point and digits, or nothing. -/
def fractionText (digits : Text) : Text :=
  if digits = [] then [] else '.' :: digits

/-- The exponent of a number: its letter, a sign and digits, or nothing. -/
def exponentPart (negative : Bool) (digits : Text) : Text :=
  if digits = [] then [] else 'e' :: (if negative then '-' else '+') :: digits

/-- A number with a fraction or an exponent, by its parts. -/
structure Spelling where
  whole : Text
  fraction : Text
  negative : Bool
  exponent : Text
  whole_ne : whole ≠ []
  digits : ∀ c ∈ whole ++ fraction ++ exponent, c.isDigit = true
  some_part : fraction ≠ [] ∨ exponent ≠ []

namespace Spelling

variable (s : Spelling)

/-- What is written. -/
def text : Text :=
  s.whole ++ fractionText s.fraction ++ exponentPart s.negative s.exponent

/-- The digits without the point, as a number. -/
def number : ℕ :=
  Nat.ofDigitChars 10 (s.whole ++ s.fraction) 0

/-- The power of ten that the number is taken with. -/
def power : ℤ :=
  (if s.negative then -(Nat.ofDigitChars 10 s.exponent 0 : ℤ)
    else Nat.ofDigitChars 10 s.exponent 0) - s.fraction.length

theorem whole_digits {c : Char} (h : c ∈ s.whole) : c.isDigit = true :=
  s.digits c (List.mem_append_left _ (List.mem_append_left _ h))

theorem fraction_digits {c : Char} (h : c ∈ s.fraction) : c.isDigit = true :=
  s.digits c (List.mem_append_left _ (List.mem_append_right _ h))

theorem exponent_digits {c : Char} (h : c ∈ s.exponent) : c.isDigit = true :=
  s.digits c (List.mem_append_right _ h)

theorem exists_head : ∃ c rest, s.text = c :: rest ∧ c.isDigit = true := by
  obtain ⟨c, rest, h⟩ := List.exists_cons_of_ne_nil s.whole_ne
  refine ⟨c, rest ++ (fractionText s.fraction ++ exponentPart s.negative s.exponent), ?_,
    s.whole_digits (by rw [h]; exact List.mem_cons_self)⟩
  rw [text, h, List.append_assoc, List.cons_append]

/-- The characters of a spelling. -/
theorem mem_text {c : Char} (h : c ∈ s.text) :
    c.isDigit = true ∨ c = '.' ∨ c = 'e' ∨ c = '-' ∨ c = '+' := by
  rcases List.mem_append.mp h with h | h
  · rcases List.mem_append.mp h with h | h
    · exact .inl (s.whole_digits h)
    · rw [fractionText] at h
      split at h
      · exact absurd h List.not_mem_nil
      · rcases List.mem_cons.mp h with rfl | h
        · exact .inr (.inl rfl)
        · exact .inl (s.fraction_digits h)
  · rw [exponentPart] at h
    split at h
    · exact absurd h List.not_mem_nil
    · rcases List.mem_cons.mp h with rfl | h
      · exact .inr (.inr (.inl rfl))
      · rcases List.mem_cons.mp h with rfl | h
        · cases s.negative <;> simp
        · exact .inl (s.exponent_digits h)

end Spelling

/-! ## 2. Reading -/

theorem plainDigit_eq (c : Char) (h : c.isDigit = true ∨ c.toNat < 48) :
    (match decimalDigit? c with
      | some value => Nat.digitChar value
      | none => c) = c := by
  rcases h with hd | hlt
  · have hn := isDigit_iff.mp hd
    rw [decimalDigit?_of_lt (by omega), if_pos hd]
    have hall : ∀ n < 10, (Nat.digitChar n).toNat = 48 + n := by decide
    exact Char.ext (UInt32.toNat_inj.mp (by
      have := hall (c.toNat - 48) (by omega)
      have h48 : 48 + (c.toNat - 48) = c.toNat := by omega
      rw [h48] at this
      exact this))
  · have hd : c.isDigit = false := by
      refine Bool.eq_false_iff.mpr fun hd => ?_
      have := isDigit_iff.mp hd
      omega
    rw [decimalDigit?_of_lt (by omega), hd]
    rfl

theorem plainDigits_eq_self {t : Text}
    (h : ∀ c ∈ t, c.isDigit = true ∨ c = '.' ∨ c = 'e' ∨ c = '-' ∨ c = '+') :
    plainDigits t = t := by
  rw [plainDigits]
  refine (List.map_congr_left fun c hc => ?_).trans (List.map_id t)
  rcases h c hc with hd | rfl | rfl | rfl | rfl
  · exact plainDigit_eq c (.inl hd)
  · exact plainDigit_eq '.' (.inr (by decide))
  · rfl
  · exact plainDigit_eq '-' (.inr (by decide))
  · exact plainDigit_eq '+' (.inr (by decide))

theorem dropUnderscores?_eq_self {t : Text} (h : '_' ∉ t) : ∀ previous : Option Char,
    dropUnderscores? previous t = some t := by
  induction t with
  | nil => intro previous; rfl
  | cons c t ih =>
    intro previous
    rw [List.mem_cons, not_or] at h
    rw [dropUnderscores?.eq_def]
    split
    · rename_i heq
      exact nomatch heq
    · rename_i heq
      exact absurd (List.cons.inj heq).1.symm h.1
    · rename_i d rest _ heq
      obtain ⟨rfl, rfl⟩ := List.cons.inj heq
      rw [ih h.2]
      rfl

theorem splitSign_of_digit {c : Char} {t : Text} (h : c.isDigit = true) :
    splitSign (c :: t) = (false, c :: t) := by
  rw [splitSign.eq_def]
  split
  · rename_i heq
    obtain ⟨rfl, _⟩ := List.cons.inj heq
    exact absurd h (by decide)
  · rename_i heq
    obtain ⟨rfl, _⟩ := List.cons.inj heq
    exact absurd h (by decide)
  · rfl

theorem takeWhile_digits {w t : Text} (hw : ∀ c ∈ w, c.isDigit = true)
    (ht : t.head?.any Char.isDigit = false) :
    (w ++ t).takeWhile Char.isDigit = w ∧ (w ++ t).dropWhile Char.isDigit = t := by
  rw [List.takeWhile_append_of_pos hw, List.dropWhile_append_of_pos hw]
  cases t with
  | nil => simp
  | cons c t =>
    rw [List.head?_cons, Option.any_some] at ht
    simp [ht]

theorem readExponent?_part (negative : Bool) {ds : Text} (hds : ∀ c ∈ ds, c.isDigit = true) :
    readExponent? (exponentPart negative ds)
      = some (if negative then -(Nat.ofDigitChars 10 ds 0 : ℤ) else Nat.ofDigitChars 10 ds 0) := by
  rw [exponentPart]
  split
  · rename_i h
    rw [h]
    cases negative <;> rfl
  · rename_i hne
    have hall : ds.all Char.isDigit = true := List.all_eq_true.mpr hds
    have hempty : ds.isEmpty = false := by simpa using hne
    cases negative <;> simp [readExponent?, splitSign, hall, hempty, ofDigits_digits hds]

/-- A spelling without a sign is read as the nearest double. -/
theorem readDecimal?_spelling (s : Spelling) (negative : Bool) :
    readDecimal? negative s.text = some (Binary64.ofDecimal negative s.number s.power) := by
  have hexp : (exponentPart s.negative s.exponent).head?.any Char.isDigit = false := by
    rw [exponentPart]
    split <;> rfl
  have hfrac : (fractionText s.fraction ++ exponentPart s.negative s.exponent).head?.any
      Char.isDigit = false := by
    rw [fractionText]
    split
    · exact hexp
    · rfl
  obtain ⟨htake, hdrop⟩ := takeWhile_digits (fun c => s.whole_digits) hfrac
  have hnumber : ofDigits 10 ((s.whole ++ s.fraction).filterMap (digitBelow? 10)) = s.number := by
    refine ofDigits_digits fun c hc => ?_
    rcases List.mem_append.mp hc with hc | hc
    · exact s.whole_digits hc
    · exact s.fraction_digits hc
  have hwhole : s.whole.isEmpty = false := by simpa using s.whole_ne
  have hread := readExponent?_part s.negative fun c => s.exponent_digits
  rw [readDecimal?, Spelling.text, List.append_assoc, htake, hdrop]
  by_cases hf : s.fraction = []
  · -- without a fraction the exponent follows, and it is not empty
    have hexponent := s.some_part.resolve_left fun h => h hf
    simp only [hf, List.append_nil] at hnumber
    simp only [fractionText, hf, if_true, List.nil_append]
    have hpart : exponentPart s.negative s.exponent
        = 'e' :: (if s.negative then '-' else '+') :: s.exponent := by
      rw [exponentPart, if_neg hexponent]
    rw [hpart] at hread ⊢
    simp [hwhole, hread, hnumber, Spelling.power, hf]
  · obtain ⟨htake', hdrop'⟩ := takeWhile_digits (fun c => s.fraction_digits) hexp
    rw [List.filterMap_append] at hnumber
    simp [fractionText, hf, htake', hdrop', hwhole, hread, hnumber, Spelling.power]

/-- The double of a text that begins with a digit is the one of its decimal. -/
theorem readDouble?_of_digit {t : Text} {c : Char} {rest : Text} (hc : c.isDigit = true)
    (h : dropUnderscores? none (plainDigits t) = some (c :: rest)) :
    readDouble? t = readDecimal? false (c :: rest) := by
  -- no word begins with a digit
  have hword : ∀ word : String, word.toList.head?.any Char.isAlpha = true →
      String.ofList ((c :: rest).map Char.toLower) ≠ word := by
    rintro word hw rfl
    have hn := isDigit_iff.mp hc
    have hcapital : ¬ (c.val ≥ 'A'.val ∧ c.val ≤ 'Z'.val) := by
      intro h
      have : 65 ≤ c.toNat := UInt32.le_iff_toNat_le.mp h.1
      omega
    have hlower : c.toLower = c := dif_neg hcapital
    rw [String.toList_ofList, List.map_cons, List.head?_cons, Option.any_some, hlower,
      isAlpha_iff] at hw
    omega
  have hinfinite : ¬ (decide (String.ofList ((c :: rest).map Char.toLower) = "inf") ||
      decide (String.ofList ((c :: rest).map Char.toLower) = "infinity")) = true := by
    rw [Bool.or_eq_true, decide_eq_true_iff, decide_eq_true_iff, not_or]
    exact ⟨hword "inf" (by decide), hword "infinity" (by decide)⟩
  rw [readDouble?, h]
  simp only [Option.bind_eq_bind, Option.bind_some, splitSign_of_digit hc, if_neg hinfinite,
    if_neg (hword "nan" (by decide))]

/-- A spelling is read as the double nearest to its decimal. -/
theorem readDouble?_spelling (s : Spelling) :
    readDouble? s.text = some (Binary64.ofDecimal false s.number s.power) := by
  have hunderscore : '_' ∉ s.text := by
    intro h
    have := s.mem_text h
    revert this
    decide
  obtain ⟨c, rest, hhead, hc⟩ := s.exists_head
  have hplain : dropUnderscores? none (plainDigits s.text) = some (c :: rest) := by
    rw [plainDigits_eq_self fun c => s.mem_text, dropUnderscores?_eq_self hunderscore, hhead]
  rw [readDouble?_of_digit hc hplain, ← hhead, readDecimal?_spelling]

/-! ## 3. Writing -/

section Writing

variable {ds : Text} (hds : ∀ c ∈ ds, c.isDigit = true) (hne : ds ≠ [])
include hds hne

theorem exists_spelling_behind {places : ℤ} (hplaces : places ≤ 0) :
    ∃ s : Spelling, "0.".toList ++ List.replicate (-places).toNat '0' ++ ds = s.text ∧
      (s.number : ℚ) * 10 ^ s.power
        = (Nat.ofDigitChars 10 ds 0 : ℕ) * 10 ^ (places - ds.length) := by
  have hfraction : List.replicate (-places).toNat '0' ++ ds ≠ [] := by simp [hne]
  have hexponent : exponentPart false [] = [] := rfl
  refine ⟨⟨['0'], List.replicate (-places).toNat '0' ++ ds, false, [], by simp, ?_,
    .inl hfraction⟩, ?_, ?_⟩
  · intro c hc
    simp only [List.append_nil, List.mem_append, List.mem_singleton] at hc
    rcases hc with rfl | hc | hc
    · rfl
    · rw [(List.mem_replicate.mp hc).2]
      rfl
    · exact hds c hc
  · simp [Spelling.text, fractionText, hne, hexponent]
  · have hpower : (0 : ℤ) - ((-places).toNat + ds.length : ℕ) = places - ds.length := by omega
    simp only [Spelling.number, Spelling.power, Nat.ofDigitChars_append, Nat.ofDigitChars_cons,
      Nat.ofDigitChars_nil, Nat.ofDigitChars_replicate_zero, List.length_append,
      List.length_replicate]
    simp [← hpower]

theorem exists_spelling_before {places : ℤ} (hplaces : ¬ places ≤ 0)
    (hlength : ds.length ≤ places.toNat) :
    ∃ s : Spelling,
      ds ++ List.replicate (places.toNat - ds.length) '0' ++ ".0".toList = s.text ∧
      (s.number : ℚ) * 10 ^ s.power
        = (Nat.ofDigitChars 10 ds 0 : ℕ) * 10 ^ (places - ds.length) := by
  have hexponent : exponentPart false [] = [] := rfl
  refine ⟨⟨ds ++ List.replicate (places.toNat - ds.length) '0', ['0'], false, [],
    by simp [hne], ?_, .inl (by simp)⟩, ?_, ?_⟩
  · intro c hc
    simp only [List.append_nil, List.mem_append, List.mem_singleton] at hc
    rcases hc with (hc | hc) | rfl
    · exact hds c hc
    · rw [(List.mem_replicate.mp hc).2]
      rfl
    · rfl
  · simp [Spelling.text, fractionText, hexponent]
  · have hpower : places - ds.length = (places.toNat - ds.length : ℕ) := by omega
    rw [hpower, zpow_natCast]
    simp [Spelling.number, Spelling.power, Nat.ofDigitChars_append, Nat.ofDigitChars_cons]
    ring

theorem exists_spelling_between {places : ℤ} (hplaces : ¬ places ≤ 0)
    (hlength : ¬ ds.length ≤ places.toNat) :
    ∃ s : Spelling, ds.take places.toNat ++ '.' :: ds.drop places.toNat = s.text ∧
      (s.number : ℚ) * 10 ^ s.power
        = (Nat.ofDigitChars 10 ds 0 : ℕ) * 10 ^ (places - ds.length) := by
  have hexponent : exponentPart false [] = [] := rfl
  have hdrop : ds.drop places.toNat ≠ [] := by
    simpa [List.drop_eq_nil_iff] using hlength
  refine ⟨⟨ds.take places.toNat, ds.drop places.toNat, false, [], ?_, ?_, .inl hdrop⟩, ?_, ?_⟩
  · simp [hne]
    omega
  · intro c hc
    rw [List.append_nil, List.take_append_drop] at hc
    exact hds c hc
  · simp [Spelling.text, fractionText, hdrop, hexponent]
  · have hpower : (0 : ℤ) - (ds.length - places.toNat : ℕ) = places - ds.length := by omega
    simp [Spelling.number, Spelling.power, ← hpower]

/-- With the point put into a text of digits, the digits are the same and the power of ten
is what the digits behind the point take away. The point stands in front of all digits, behind all
of them, or between two. -/
theorem exists_spelling_positional (places : ℤ) :
    ∃ s : Spelling, positionalText ds places = s.text ∧
      (s.number : ℚ) * 10 ^ s.power
        = (Nat.ofDigitChars 10 ds 0 : ℕ) * 10 ^ (places - ds.length) := by
  rw [positionalText]
  split
  · exact exists_spelling_behind hds hne ‹_›
  · dsimp only
    split
    · exact exists_spelling_before hds hne ‹_› ‹_›
    · exact exists_spelling_between hds hne ‹_› ‹_›

/-- In the form with an exponent, too. -/
theorem exists_spelling_exponent (layout : Layout) (exponent : ℤ) :
    ∃ s : Spelling, exponentText layout ds exponent = s.text ∧
      (s.number : ℚ) * 10 ^ s.power
        = (Nat.ofDigitChars 10 ds 0 : ℕ) * 10 ^ (exponent - (ds.length - 1)) := by
  have hpadded : paddedText layout.exponentDigits exponent.natAbs ≠ [] := by
    simp [paddedText, Nat.toDigits_ne_nil]
  have hpos : 0 < ds.length := List.length_pos_iff.mpr hne
  refine ⟨⟨ds.take 1, ds.drop 1, decide (exponent < 0),
    paddedText layout.exponentDigits exponent.natAbs, by simp [hne], ?_, .inr hpadded⟩, ?_, ?_⟩
  · intro c hc
    rw [List.take_append_drop] at hc
    rcases List.mem_append.mp hc with hc | hc
    · exact hds c hc
    · rcases List.mem_append.mp hc with hc | hc
      · rw [(List.mem_replicate.mp hc).2]
        rfl
      · exact isDigit_of_mem_toDigits hc
  · have hfraction : (if ds.length ≤ 1 then [] else '.' :: ds.drop 1)
        = fractionText (ds.drop 1) := by
      simp only [fractionText, List.drop_eq_nil_iff]
    simp only [exponentText, Spelling.text, hfraction, exponentPart, hpadded, if_false,
      decide_eq_true_eq, List.append_assoc]
  · have hvalue : Nat.ofDigitChars 10 (paddedText layout.exponentDigits exponent.natAbs) 0
        = exponent.natAbs := by
      simp [paddedText, Nat.ofDigitChars_append]
    have hpower : (if exponent < 0 then -(exponent.natAbs : ℤ) else exponent.natAbs)
        - ((ds.length - 1 : ℕ) : ℤ) = exponent - (ds.length - 1) := by
      split <;> omega
    simp only [Spelling.number, Spelling.power, List.take_append_drop, hvalue, decide_eq_true_eq,
      List.length_drop, hpower]

end Writing

/-- A decimal is written as a spelling of the same value. -/
theorem exists_spelling (layout : Layout) (digits : ℕ) (power : ℤ) :
    ∃ s : Spelling, layout.write digits power = s.text ∧
      (s.number : ℚ) * 10 ^ s.power = digits * 10 ^ power := by
  have hds : ∀ c ∈ Nat.toDigits 10 digits, c.isDigit = true := fun c => isDigit_of_mem_toDigits
  have hne : Nat.toDigits 10 digits ≠ [] := Nat.toDigits_ne_nil
  rw [Layout.write]
  split
  · obtain ⟨s, htext, hvalue⟩ := exists_spelling_positional hds hne
      (power + (Nat.toDigits 10 digits).length - 1 + 1)
    refine ⟨s, htext, ?_⟩
    rw [hvalue, Nat.ofDigitChars_ten_toDigits]
    congr 2
    omega
  · obtain ⟨s, htext, hvalue⟩ := exists_spelling_exponent hds hne layout
      (power + (Nat.toDigits 10 digits).length - 1)
    refine ⟨s, htext, ?_⟩
    rw [hvalue, Nat.ofDigitChars_ten_toDigits]
    congr 2
    omega

/-! ## 4. The text of a double -/

/-- The text of a double in normal form, without the sign, is a spelling that is read as that
double without the sign. -/
theorem exists_spelling_of_normal {m : ℕ} {e : ℤ} (h : Normal m e) :
    ∃ s : Spelling, (∀ negative, (Binary64.finite negative m e).text
        = if negative then '-' :: s.text else s.text) ∧
      readDouble? s.text = some (.finite false m e) := by
  by_cases hm : m = 0
  · have he : e = Binary64.minExponent := by
      rcases h.filled with h52 | he
      · omega
      · exact he
    refine ⟨⟨['0'], ['0'], false, [], by simp, by simp, .inl (by simp)⟩, ?_, ?_⟩
    · intro negative
      rw [Binary64.text, if_pos hm]
      rfl
    · rw [hm, he]
      rfl
  · obtain ⟨s, htext, hvalue⟩ := exists_spelling standardLayout (Shortest.decimal m e).1
      (Shortest.decimal m e).2
    have hnearest := nearest_decimal (Nat.pos_of_ne_zero hm) h
    rw [← hvalue] at hnearest
    refine ⟨s, ?_, ?_⟩
    · intro negative
      rw [← htext, Binary64.text, if_neg hm]
    · rw [readDouble?_spelling,
        ofDecimal_of_nearest false (Nat.pos_of_ne_zero hm) h hnearest]

end ViewContract.Number
