/-
ViewContract.Proofs.Number.Overflow — integers beyond the doubles.

The greatest double is one unit below `2 ^ 1024`, and a unit there is `2 ^ 971`. An integer is
rounded past it as soon as it lies half a unit or less below `2 ^ 1024`, since of the two
neighbours at the half `2 ^ 1024` has the even significand (`ofInt?_eq_none_iff`). One that has a
double has far fewer digits than an integer may be written with, and the decimal of one that has
none is infinite (`ofDecimal_zero`).
-/
import ViewContract.Proofs.Number.Shortest
import ViewContract.Number.Printed

namespace ViewContract.Number

open Binary64

/-- A number is rounded up to `2 ^ 53` units from half a unit below it. -/
theorem roundDiv_eq_carry_iff {num half : ℕ} (hhalf : 0 < half) (hlt : num < 2 ^ 54 * half) :
    roundDiv num (2 * half) = 2 ^ 53 ↔ (2 ^ 54 - 1) * half ≤ num := by
  have hcut := Nat.div_add_mod num (2 * half)
  have hmod := Nat.mod_lt num (show 0 < 2 * half by omega)
  have hbelow : num / (2 * half) < 2 ^ 53 := by
    refine (Nat.div_lt_iff_lt_mul (by omega)).mpr ?_
    omega
  rw [roundDiv]
  generalize num / (2 * half) = below at *
  generalize num % (2 * half) = left at *
  by_cases hlast : below = 2 ^ 53 - 1
  · subst hlast
    split
    · omega
    · split <;> omega
  · have hle : 2 * half * (below + 1) ≤ 2 * half * (2 ^ 53 - 1) :=
      Nat.mul_le_mul_left _ (by omega)
    rw [Nat.mul_add_one] at hle
    split
    · omega
    · split <;> omega

/-- The power of two below an integer. -/
theorem floorLog2_one {n : ℕ} (hn : 0 < n) : floorLog2 n 1 = n.log2 := by
  have hlog : 2 ^ n.log2 ≤ n := Nat.log2_self_le hn.ne'
  have htwo : twoTo (n.log2 : ℤ) = 2 ^ n.log2 := rfl
  have hone : twoTo (-(n.log2 : ℤ)) = 1 := by
    rw [twoTo, show (-(n.log2 : ℤ)).toNat = 0 by omega]
  have hguess : ((n.log2 : ℤ) - ((1 : ℕ).log2 : ℤ)) = n.log2 := by
    rw [show (1 : ℕ).log2 = 0 by rfl, Nat.cast_zero, sub_zero]
  rw [floorLog2, hguess, htwo, hone, if_pos (by omega)]

/-- The exponent of an integer as a double, which is one more if its significand is rounded up to
`2 ^ 53`. -/
theorem isFinite_ofRatio_one (negative : Bool) {n : ℕ} (hn : 0 < n) :
    (ofRatio negative n 1).isFinite = true ↔
      (n.log2 : ℤ) - 52 < maxExponent ∨
        (n.log2 : ℤ) - 52 = maxExponent ∧ scaledRound n 1 maxExponent ≠ 2 ^ 53 := by
  have hexponent : max (floorLog2 n 1 - (precision - 1)) minExponent = (n.log2 : ℤ) - 52 := by
    have hprecision : precision - 1 = 52 := rfl
    have hmin : minExponent = -1074 := rfl
    rw [floorLog2_one hn, hprecision, hmin]
    omega
  have hcarry : twoTo precision = 2 ^ 53 := rfl
  simp only [ofRatio, hn.ne', if_false, hexponent, hcarry]
  by_cases hround : scaledRound n 1 ((n.log2 : ℤ) - 52) = 2 ^ 53
  · rw [if_pos hround]
    dsimp only
    split
    · refine iff_of_false Bool.false_ne_true ?_
      rintro (hlt | ⟨heq, hne⟩)
      · omega
      · exact hne (heq ▸ hround)
    · exact iff_of_true rfl (.inl (by omega))
  · rw [if_neg hround]
    dsimp only
    split
    · exact iff_of_false Bool.false_ne_true (by rintro (hlt | ⟨heq, -⟩) <;> omega)
    · refine iff_of_true rfl ?_
      rcases lt_or_eq_of_le (not_lt.mp ‹_›) with hlt | heq
      · exact .inl hlt
      · exact .inr ⟨heq, heq ▸ hround⟩

/-- Half a unit of the greatest doubles. -/
def halfUnit : ℕ :=
  twoTo (maxExponent - 1)

theorem two_pow_eq_halfUnit (k : ℕ) {e : ℕ} (he : (e : ℤ) = maxExponent - 1) :
    2 ^ (k + e) = 2 ^ k * halfUnit := by
  rw [halfUnit, twoTo, ← he, Int.toNat_natCast]
  exact Nat.pow_add 2 k e

/-- The quotient that is rounded among the greatest doubles. -/
theorem scaledRound_max (n : ℕ) : scaledRound n 1 maxExponent = roundDiv n (2 * halfUnit) := by
  have hunit : twoTo maxExponent = 2 * halfUnit := by
    obtain ⟨e, he⟩ : ∃ e : ℕ, (e : ℤ) = maxExponent - 1 := ⟨970, rfl⟩
    have hsucc : maxExponent.toNat = 1 + e := by omega
    rw [← pow_one 2, ← two_pow_eq_halfUnit 1 he, twoTo, hsucc]
    rfl
  have hone : twoTo (-maxExponent) = 1 := rfl
  rw [scaledRound, hone, hunit, Nat.mul_one, Nat.one_mul]

/-- **Integers beyond the doubles**: an integer has no double exactly if its magnitude is at
least `2 ^ 1024 - 2 ^ 970`. -/
theorem ofInt?_eq_none_iff {n : ℤ} : ofInt? n = none ↔ (2 ^ 54 - 1) * halfUnit ≤ n.natAbs := by
  have hhalf : 0 < halfUnit := Nat.cast_pos.mp (twoTo_pos _)
  have hnone : ofInt? n = none ↔ ¬ (ofRatio (decide (n < 0)) n.natAbs 1).isFinite = true := by
    rw [ofInt?]
    split
    · exact iff_of_false nofun (not_not.mpr ‹_›)
    · exact iff_of_true rfl ‹_›
  rw [hnone]
  rcases Nat.eq_zero_or_pos n.natAbs with hzero | hpos
  · rw [hzero]
    exact iff_of_false (not_not.mpr rfl) (by omega)
  · rw [isFinite_ofRatio_one _ hpos, scaledRound_max]
    have hlow : 2 ^ n.natAbs.log2 ≤ n.natAbs := Nat.log2_self_le hpos.ne'
    have hhigh : n.natAbs < 2 ^ (n.natAbs.log2 + 1) := Nat.lt_log2_self
    have hmax : maxExponent = 971 := rfl
    obtain ⟨e, he⟩ : ∃ e : ℕ, (e : ℤ) = maxExponent - 1 := ⟨970, rfl⟩
    generalize n.natAbs.log2 = a at *
    rcases lt_trichotomy (a : ℤ) (maxExponent + 52) with hlt | heq | hgt
    · have hle : 2 ^ (a + 1) ≤ 2 ^ (53 + e) := Nat.pow_le_pow_right (by decide) (by omega)
      rw [two_pow_eq_halfUnit 53 he] at hle
      exact iff_of_false (not_not.mpr (.inl (by omega))) (by omega)
    · rw [show a + 1 = 54 + e by omega, two_pow_eq_halfUnit 54 he] at hhigh
      have hexponent : (a : ℤ) - 52 = maxExponent := by omega
      rw [← roundDiv_eq_carry_iff hhalf hhigh, hexponent]
      simp
    · have hle : 2 ^ (54 + e) ≤ 2 ^ a := Nat.pow_le_pow_right (by decide) (by omega)
      rw [two_pow_eq_halfUnit 54 he] at hle
      exact iff_of_true (by rintro (hlt | ⟨heq, -⟩) <;> omega) (by omega)

/-- No integer of more than 310 digits has a double. -/
theorem ofInt?_eq_none_of_long {n : ℤ} (h : 310 < decimalLength n.natAbs) : ofInt? n = none := by
  have hmax : maxExponent = 971 := rfl
  obtain ⟨e, he⟩ : ∃ e : ℕ, (e : ℤ) = maxExponent - 1 := ⟨970, rfl⟩
  obtain rfl : e = 970 := by omega
  have hpos : 0 < n.natAbs := by
    by_contra hzero
    rw [Nat.eq_zero_of_not_pos hzero, show decimalLength 0 = 1 from rfl] at h
    omega
  have hlarge : ∀ k < decimalLength n.natAbs, 10 ^ k ≤ n.natAbs := fun k hk =>
    (Nat.pow_le_pow_right (by decide) (Nat.le_sub_one_of_lt hk)).trans (ten_pow_le_of_pos hpos)
  refine ofInt?_eq_none_iff.mpr ?_
  calc (2 ^ 54 - 1) * halfUnit ≤ 2 ^ 54 * halfUnit := Nat.mul_le_mul_right _ (Nat.sub_le _ _)
    _ = 2 ^ (54 + 970) := (two_pow_eq_halfUnit 54 he).symm
    _ ≤ 10 ^ 310 := by decide +kernel
    _ ≤ n.natAbs := hlarge 310 h

/-- An integer that has a double can be written. -/
theorem decimalLength_of_ofInt? {n : ℤ} {x : Binary64} (h : ofInt? n = some x) :
    decimalLength n.natAbs ≤ digitLimit := by
  by_contra hlong
  rw [digitLimit] at hlong
  rw [ofInt?_eq_none_of_long (by omega)] at h
  exact nomatch h

/-- A quotient that is not rounded to a finite double is infinite. -/
theorem ofRatio_of_not_finite {negative : Bool} {num den : ℕ}
    (h : (ofRatio negative num den).isFinite = false) :
    ofRatio negative num den = .infinite negative := by
  revert h
  simp only [ofRatio]
  split
  · intro h
    cases h
  · -- whether or not the significand is rounded up to a power of two
    split
    all_goals
      split
      · exact fun _ => rfl
      · intro h
        cases h

/-- A decimal without a point has the double of the integer that it is, and is infinite if there is
none. -/
theorem ofDecimal_zero (n : ℕ) : ofDecimal false n 0 = (ofInt? n).getD (.infinite false) := by
  have hratio : (ofInt? n).getD (.infinite false) = ofRatio false n 1 := by
    have hsign : decide ((n : ℤ) < 0) = false := by simp
    rw [ofInt?, Int.natAbs_natCast, hsign]
    split
    · rfl
    · rename_i hfinite
      exact (ofRatio_of_not_finite (by simpa using hfinite)).symm
  rcases Nat.eq_zero_or_pos n with rfl | hn
  · rfl
  · rw [ofDecimal, if_neg (by simp; omega)]
    split
    · rename_i hplaces
      have hlong : 310 < decimalLength (n : ℤ).natAbs := by
        rw [Int.natAbs_natCast]
        omega
      rw [ofInt?_eq_none_of_long hlong, Option.getD_none]
    · have hten : tenTo 0 = 1 := rfl
      rw [hratio, neg_zero, hten, Nat.mul_one]

end ViewContract.Number
