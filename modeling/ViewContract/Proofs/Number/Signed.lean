/-
ViewContract.Proofs.Number.Signed — numbers with a sign.

The sign of a number is read with it in a doc comment, and taken off before in a parameter
list. Both come to the same, and this is shown for each way in which a number can be read:

  §1 signs. A number begins with a digit of some script or a point, so a sign in front of it
     is told from it.
  §2 integers and doubles with a sign in front.
  §3 literals (`read_signed`).
-/
import ViewContract.Number.Literal
import ViewContract.Proofs.Number.Spelling
import ViewContract.Proofs.Text.Blank
import ViewContract.Proofs.Text.Lowercase

namespace ViewContract.Number

open ViewContract.Text

/-! ## 1. Signs -/

/-- No sign, a plus or a minus. -/
def IsSign (sign : Text) : Prop :=
  sign = [] ∨ sign = ['+'] ∨ sign = ['-']

/-- A text that begins like a number without a sign, and does not end with a blank. -/
structure Unsigned (t : Text) : Prop where
  head : ∃ c rest, t = c :: rest ∧ (isDecimalDigit c = true ∨ c = '.')
  last : ∀ c, t.getLast? = some c → isBlank c = false

/-- A text that does not begin with a sign. -/
def Signless (t : Text) : Prop :=
  t.head? ≠ some '-' ∧ t.head? ≠ some '+'

theorem splitSign_of_signless {t : Text} (ht : Signless t) : splitSign t = (false, t) := by
  obtain ⟨hminus, hplus⟩ := ht
  rw [splitSign.eq_def]
  split
  · exact absurd rfl hminus
  · exact absurd rfl hplus
  · rfl

/-- A sign is split off what begins without one. -/
theorem splitSign_signed {sign t : Text} (hsign : IsSign sign) (ht : Signless t) :
    splitSign (sign ++ t) = (decide (sign = ['-']), t) := by
  rcases hsign with rfl | rfl | rfl
  · exact splitSign_of_signless ht
  · rfl
  · rfl

theorem Unsigned.signless {t : Text} (ht : Unsigned t) : Signless t := by
  obtain ⟨c, rest, rfl, hc⟩ := ht.head
  have hne : c ≠ '-' ∧ c ≠ '+' := by
    rcases hc with hdigit | rfl
    · constructor <;> rintro rfl <;> exact absurd hdigit (by decide)
    · decide
  simpa [Signless] using hne

/-! ## 2. Integers and doubles -/

/-- With ASCII digits a number begins with one of them, or with a point as before. -/
theorem Unsigned.plainDigits {t : Text} (ht : Unsigned t) : Signless (plainDigits t) := by
  obtain ⟨c, rest, rfl, hc⟩ := ht.head
  rcases hc with hdigit | rfl
  · obtain ⟨value, hvalue⟩ := Option.isSome_iff_exists.mp hdigit
    simp [Signless, Number.plainDigits, hvalue]
  · simp [Signless, Number.plainDigits, show decimalDigit? '.' = none by decide]

theorem plainDigits_signed {sign : Text} (hsign : IsSign sign) (t : Text) :
    plainDigits (sign ++ t) = sign ++ plainDigits t := by
  rcases hsign with rfl | rfl | rfl <;> rfl

theorem readInt?_signed {sign t : Text} (hsign : IsSign sign) (ht : Unsigned t) :
    readInt? (sign ++ t) = (readInt? t).map fun n => if sign = ['-'] then -n else n := by
  rw [readInt?, readInt?, plainDigits_signed hsign, splitSign_signed hsign ht.plainDigits,
    splitSign_of_signless ht.plainDigits]
  cases readNat? (Number.plainDigits t) <;> simp

/-- Before a number a sign stands like nothing: it is no digit. -/
theorem dropUnderscores?_sign {sign : Char} (hsign : sign.isDigit = false) (t : Text) :
    dropUnderscores? (some sign) t = dropUnderscores? none t := by
  cases t with
  | nil => rfl
  | cons c t =>
    by_cases hc : c = '_'
    · subst hc
      simp [dropUnderscores?, hsign]
    · simp [dropUnderscores?]

theorem dropUnderscores?_signed {sign : Text} (hsign : IsSign sign) (t : Text) :
    dropUnderscores? none (sign ++ t) = (dropUnderscores? none t).map (sign ++ ·) := by
  rcases hsign with rfl | rfl | rfl
  · simp
  · simp [dropUnderscores?, dropUnderscores?_sign]
  · simp [dropUnderscores?, dropUnderscores?_sign]

/-- Without underscores a text begins as before. -/
theorem head?_of_dropUnderscores? {t plain : Text} (h : dropUnderscores? none t = some plain) :
    plain.head? = t.head? := by
  cases t with
  | nil => rw [← Option.some.inj h]
  | cons c t =>
    by_cases hc : c = '_'
    · subst hc
      exact absurd h (by simp [dropUnderscores?])
    · simp only [dropUnderscores?] at h
      obtain ⟨rest, _, rfl⟩ := Option.map_eq_some_iff.mp h
      rfl

theorem ofRatio_neg (num den : ℕ) :
    Binary64.ofRatio true num den = (Binary64.ofRatio false num den).neg := by
  simp only [Binary64.ofRatio]
  split
  · rfl
  · -- the double is the same up to its sign, finite or not
    split <;> split <;> rfl

theorem ofDecimal_neg (digits : ℕ) (power : ℤ) :
    Binary64.ofDecimal true digits power = (Binary64.ofDecimal false digits power).neg := by
  simp only [Binary64.ofDecimal]
  split
  · rfl
  · split
    · rfl
    · exact ofRatio_neg _ _

theorem readDecimal?_neg (t : Text) : readDecimal? true t = (readDecimal? false t).map .neg := by
  have hpower : ∀ (exponent : Option ℤ) (digits : ℕ) (shift : ℤ),
      (exponent.bind fun power => some (Binary64.ofDecimal true digits (power - shift)))
        = (exponent.bind fun power =>
            some (Binary64.ofDecimal false digits (power - shift))).map .neg := by
    intro exponent digits shift
    cases exponent with
    | none => rfl
    | some power => simp [ofDecimal_neg]
  simp only [readDecimal?]
  split
  all_goals
    split
    · rfl
    · exact hpower _ _ _

theorem readDouble?_signed {sign t : Text} (hsign : IsSign sign) (ht : Unsigned t) :
    readDouble? (sign ++ t)
      = (readDouble? t).map fun x => if sign = ['-'] then x.neg else x := by
  rw [readDouble?, readDouble?, plainDigits_signed hsign, dropUnderscores?_signed hsign]
  cases hplain : dropUnderscores? none (Number.plainDigits t) with
  | none => rfl
  | some plain =>
    have hsignless : Signless plain := by
      rw [Signless, head?_of_dropUnderscores? hplain]
      exact ht.plainDigits
    simp only [Option.map_some, Option.bind_eq_bind, Option.bind_some,
      splitSign_signed hsign hsignless, splitSign_of_signless hsignless]
    by_cases hminus : sign = ['-']
    · simp only [hminus, decide_true, if_true]
      split
      · rfl
      · split
        · rfl
        · exact readDecimal?_neg plain
    · simp [hminus]

/-! ## 3. Literals -/

theorem isOldOctal_signed {sign t : Text} (hsign : IsSign sign) (ht : Unsigned t) :
    isOldOctal (sign ++ t) = isOldOctal t := by
  rw [isOldOctal, isOldOctal, splitSign_signed hsign ht.signless, splitSign_of_signless ht.signless]

theorem readOldOctal_signed {sign t : Text} (hsign : IsSign sign) (ht : Unsigned t) :
    readOldOctal (sign ++ t) = if sign = ['-'] then -readOldOctal t else readOldOctal t := by
  rw [readOldOctal, readOldOctal, splitSign_signed hsign ht.signless,
    splitSign_of_signless ht.signless]
  simp

theorem beginsNumeric_signed {sign : Text} (hsign : IsSign sign) (t : Text) :
    beginsNumeric (sign ++ t) = beginsNumeric t := by
  rcases hsign with rfl | rfl | rfl <;> rfl

theorem trim_signed {sign t : Text} (hsign : IsSign sign) (ht : Unsigned t) :
    trim (sign ++ t) = sign ++ t := by
  obtain ⟨c, rest, hcut, hc⟩ := ht.head
  have hblank : isBlank c = false := by
    rcases hc with hdigit | rfl
    · exact not_blank_of_isDecimalDigit hdigit
    · decide
  have hhead : (sign ++ t).head?.all (!isBlank ·) = true := by
    rw [hcut]
    rcases hsign with rfl | rfl | rfl
    · simpa using hblank
    · simp [show isBlank '+' = false by decide]
    · simp [show isBlank '-' = false by decide]
  have hlast : (sign ++ t).getLast?.all (!isBlank ·) = true := by
    have hne : t ≠ [] := by rw [hcut]; exact List.cons_ne_nil c rest
    rw [List.getLast?_append_of_ne_nil _ hne]
    cases hlast : t.getLast? with
    | none => rfl
    | some d => simpa using ht.last d hlast
  exact trim_eq_self hhead hlast

/-- A number does not read as null. -/
theorem lower_signed_ne_null {sign t : Text} (hsign : IsSign sign) (ht : Unsigned t) :
    lower (sign ++ t) ≠ "null".toList := by
  obtain ⟨c, rest, rfl, hc⟩ := ht.head
  have hfirst : c ≠ 'n' ∧ c ≠ 'N' := by
    rcases hc with hdigit | rfl
    · constructor <;> rintro rfl <;> exact absurd hdigit (by decide)
    · decide
  intro h
  rcases hsign with rfl | rfl | rfl
  · exact not_or.mpr hfirst (head_of_lower_null h)
  · exact absurd (head_of_lower_null h) (by decide)
  · exact absurd (head_of_lower_null h) (by decide)

/-- A number with the sign that stands in front of it. -/
def Literal.signed (sign : Text) (number : Literal) : Literal :=
  if sign = ['-'] then number.neg else number

/-- A sign is read with a number as it is applied to the number without it. -/
theorem read_signed {sign t : Text} (hsign : IsSign sign) (ht : Unsigned t) {number : Literal}
    (h : Literal.read t = .ok number) : Literal.read (sign ++ t) = .ok (number.signed sign) := by
  rw [Literal.read, ← List.nil_append t, trim_signed (.inl rfl) ht, List.nil_append] at h
  rw [Literal.read, trim_signed hsign ht]
  simp only [isOldOctal_signed hsign ht, readOldOctal_signed hsign ht, readInt?_signed hsign ht,
    readDouble?_signed hsign ht, beginsNumeric_signed hsign]
  by_cases hoctal : isOldOctal t = true
  · rw [if_pos hoctal] at h ⊢
    obtain rfl := Except.ok.inj h
    by_cases hminus : sign = ['-'] <;> simp [hminus, Literal.signed, Literal.neg]
  · rw [if_neg hoctal] at h ⊢
    cases hint : readInt? t with
    | some n =>
      rw [hint] at h
      obtain rfl := Except.ok.inj h
      by_cases hminus : sign = ['-'] <;> simp [hminus, Literal.signed, Literal.neg]
    | none =>
      rw [hint] at h
      by_cases hbegins : beginsNumeric t = true
      · cases hdouble : readDouble? t with
        | some x =>
          simp only [hbegins, Bool.not_true, Bool.false_eq_true, if_false, hdouble] at h
          obtain rfl := Except.ok.inj h
          by_cases hminus : sign = ['-'] <;> simp [hminus, hbegins, Literal.signed, Literal.neg]
        | none => simp [hbegins, hdouble] at h
      · simp [hbegins] at h

end ViewContract.Number
