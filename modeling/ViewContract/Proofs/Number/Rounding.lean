/-
ViewContract.Proofs.Number.Rounding — doubles as the nearest of their neighbours.

The library rounds with natural numbers only. Here its steps are read as statements about
rational numbers:

  §1 the scaled powers `twoTo` and `tenTo` as powers.
  §2 `roundDiv` finds the nearest natural number, and of two the even one.
  §3 `floorLog2` finds the power of two below a quotient.
  §4 the reals that a double stands for (`Nearest`), and that `ofRatio` rounds each of them
     to the double (`ofRatio_of_nearest`).
  §5 what `ofRatio` yields is in normal form (`isNormal_ofRatio`).

The neighbour below a power of two is only half as far away as the one above. A quotient
in that half gap has the smaller exponent, is rounded up to `2 ^ 53` there, and then takes the
exponent of the power of two; this is why the second case of `ofRatio_of_nearest` exists.
-/
import ViewContract.Number.Binary64
import Mathlib.Algebra.Order.Field.Power
import Mathlib.Data.Rat.Cast.Order
import Mathlib.Tactic.FieldSimp
import Mathlib.Tactic.Linarith
import Mathlib.Tactic.NormNum
import Mathlib.Tactic.Ring

namespace ViewContract.Number

open Binary64

/-! ## 1. Powers -/

theorem toNat_pow_cast (b : ℕ) (hb : b ≠ 0) (e : ℤ) :
    ((b ^ e.toNat : ℕ) : ℚ) = (b : ℚ) ^ e * ((b ^ (-e).toNat : ℕ) : ℚ) := by
  have hb' : (b : ℚ) ≠ 0 := Nat.cast_ne_zero.mpr hb
  have hdiff : e = (e.toNat : ℤ) - ((-e).toNat : ℤ) := by omega
  rw [Nat.cast_pow, Nat.cast_pow, ← zpow_natCast, ← zpow_natCast, ← zpow_add₀ hb']
  congr 1
  omega

theorem twoTo_cast (e : ℤ) : (twoTo e : ℚ) = 2 ^ e * (twoTo (-e) : ℚ) :=
  toNat_pow_cast 2 (by decide) e

theorem tenTo_cast (e : ℤ) : (tenTo e : ℚ) = 10 ^ e * (tenTo (-e) : ℚ) :=
  toNat_pow_cast 10 (by decide) e

theorem twoTo_pos (e : ℤ) : (0 : ℚ) < twoTo e :=
  Nat.cast_pos.mpr (Nat.pow_pos (by decide))

theorem tenTo_pos (e : ℤ) : (0 : ℚ) < tenTo e :=
  Nat.cast_pos.mpr (Nat.pow_pos (by decide))

/-! ## 2. The nearest natural number -/

/-- A number within half a unit of a quotient is what the quotient is rounded to; half way it
has to be even. -/
theorem roundDiv_eq {num den m : ℕ} (hden : 0 < den) (hlow : 2 * (den * m) ≤ 2 * num + den)
    (hhigh : 2 * num ≤ 2 * (den * m) + den)
    (htie : 2 * (den * m) = 2 * num + den ∨ 2 * num = 2 * (den * m) + den → m % 2 = 0) :
    roundDiv num den = m := by
  have hcut := Nat.div_add_mod num den
  have hmod := Nat.mod_lt num hden
  have hle : num / den ≤ m := by
    refine Nat.lt_succ_iff.mp ((Nat.div_lt_iff_lt_mul hden).mpr ?_)
    rw [Nat.succ_mul, Nat.mul_comm m den]
    omega
  rw [roundDiv]
  rcases Nat.eq_or_lt_of_le hle with heq | hlt
  · rw [heq] at hcut ⊢
    split
    · rfl
    · split
      · omega
      · have := htie (.inr (by omega))
        omega
  · -- the quotient is at least `m - 1`, so the remainder is at least half of `den`
    have hpred : num / den = m - 1 := by
      refine Nat.le_antisymm (by omega) ((Nat.le_div_iff_mul_le hden).mpr ?_)
      rw [Nat.sub_mul, Nat.mul_comm m den]
      omega
    have hmul : den * (m - 1) + den = den * m := by
      rw [← Nat.mul_succ]
      congr 1
      omega
    rw [hpred] at hcut ⊢
    split
    · omega
    · split
      · omega
      · have := htie (.inl (by omega))
        omega

/-! ## 3. The power of two below a quotient -/

theorem two_zpow_pos (e : ℤ) : (0 : ℚ) < 2 ^ e :=
  zpow_pos (by norm_num) e

theorem two_zpow_add (a b : ℤ) : (2 : ℚ) ^ (a + b) = 2 ^ a * 2 ^ b :=
  zpow_add₀ (by norm_num) a b

theorem two_zpow_log2_le {n : ℕ} (hn : 0 < n) : (2 : ℚ) ^ (n.log2 : ℤ) ≤ n := by
  rw [zpow_natCast]
  exact_mod_cast Nat.log2_self_le hn.ne'

theorem lt_two_zpow_log2 (n : ℕ) : (n : ℚ) < 2 ^ ((n.log2 : ℤ) + 1) := by
  rw [show (n.log2 : ℤ) + 1 = ((n.log2 + 1 : ℕ) : ℤ) by push_cast; rfl, zpow_natCast]
  exact_mod_cast Nat.lt_log2_self

theorem floorLog2_spec {num den : ℕ} (hnum : 0 < num) (hden : 0 < den) :
    (2 : ℚ) ^ floorLog2 num den ≤ num / den ∧ (num / den : ℚ) < 2 ^ (floorLog2 num den + 1) := by
  have hden' : (0 : ℚ) < den := Nat.cast_pos.mpr hden
  -- the guess is at most one too great
  have hlow : (2 : ℚ) ^ ((num.log2 : ℤ) - den.log2 - 1) ≤ num / den := by
    rw [le_div_iff₀ hden']
    calc (2 : ℚ) ^ ((num.log2 : ℤ) - den.log2 - 1) * den
        ≤ 2 ^ ((num.log2 : ℤ) - den.log2 - 1) * 2 ^ ((den.log2 : ℤ) + 1) :=
          mul_le_mul_of_nonneg_left (lt_two_zpow_log2 den).le (two_zpow_pos _).le
      _ = 2 ^ (num.log2 : ℤ) := by
          rw [← two_zpow_add]
          congr 1
          ring
      _ ≤ num := two_zpow_log2_le hnum
  have hhigh : (num / den : ℚ) < 2 ^ ((num.log2 : ℤ) - den.log2 + 1) := by
    rw [div_lt_iff₀ hden']
    calc (num : ℚ) < 2 ^ ((num.log2 : ℤ) + 1) := lt_two_zpow_log2 num
      _ = 2 ^ ((num.log2 : ℤ) - den.log2 + 1) * 2 ^ (den.log2 : ℤ) := by
          rw [← two_zpow_add]
          congr 1
          ring
      _ ≤ 2 ^ ((num.log2 : ℤ) - den.log2 + 1) * den :=
          mul_le_mul_of_nonneg_left (two_zpow_log2_le hden) (two_zpow_pos _).le
  have htest : ∀ g : ℤ, den * twoTo g ≤ num * twoTo (-g) ↔ (2 : ℚ) ^ g ≤ num / den := by
    intro g
    have hscale := twoTo_pos (-g)
    rw [le_div_iff₀ hden', ← Nat.cast_le (α := ℚ), Nat.cast_mul, Nat.cast_mul, twoTo_cast g,
      show (den : ℚ) * (2 ^ g * twoTo (-g)) = 2 ^ g * den * twoTo (-g) by ring]
    exact mul_le_mul_iff_left₀ hscale
  rw [floorLog2]
  simp only [htest]
  split
  · rename_i h
    exact ⟨h, hhigh⟩
  · rename_i h
    refine ⟨hlow, ?_⟩
    rw [Int.sub_add_cancel]
    exact not_le.mp h

/-- The power of two below a quotient is the only one. -/
theorem floorLog2_eq {num den : ℕ} {a : ℤ} (hnum : 0 < num) (hden : 0 < den)
    (h1 : (2 : ℚ) ^ a ≤ num / den) (h2 : (num / den : ℚ) < 2 ^ (a + 1)) :
    floorLog2 num den = a := by
  obtain ⟨hf1, hf2⟩ := floorLog2_spec hnum hden
  have hlt : ∀ {x y : ℤ}, (2 : ℚ) ^ x < 2 ^ y → x < y := fun h =>
    (zpow_lt_zpow_iff_right₀ (by norm_num)).mp h
  have ha := hlt (lt_of_le_of_lt h1 hf2)
  have hb := hlt (lt_of_le_of_lt hf1 h2)
  omega

/-! ## 4. What rounds to a double -/

/-- The normal form of a finite double. -/
structure Normal (m : ℕ) (e : ℤ) : Prop where
  significand_lt : m < 2 ^ 53
  exponent_ge : minExponent ≤ e
  exponent_le : e ≤ maxExponent
  filled : 2 ^ 52 ≤ m ∨ e = minExponent

/-- Half the distance from the neighbour below, in units of the last place. -/
def gapBelow (m : ℕ) (e : ℤ) : ℚ :=
  if m = 2 ^ 52 ∧ minExponent < e then 1 / 4 else 1 / 2

/-- The numbers that are nearer to `m · 2 ^ e` than to its neighbours, and those half way to
one if `m` is even. -/
structure Nearest (m : ℕ) (e : ℤ) (q : ℚ) : Prop where
  low : (m - gapBelow m e) * 2 ^ e ≤ q
  high : q ≤ (m + 1 / 2) * 2 ^ e
  odd : m % 2 = 1 → (m - gapBelow m e) * 2 ^ e < q ∧ q < (m + 1 / 2) * 2 ^ e

theorem gapBelow_le (m : ℕ) (e : ℤ) : gapBelow m e ≤ 1 / 2 := by
  rw [gapBelow]
  split <;> norm_num

theorem gapBelow_pos (m : ℕ) (e : ℤ) : 0 < gapBelow m e := by
  rw [gapBelow]
  split <;> norm_num

/-- The numbers that `scaledRound` divides have the quotient in units as theirs. -/
theorem scaled_cast (num : ℕ) {den : ℕ} (hden : 0 < den) (e : ℤ) :
    ((num * twoTo (-e) : ℕ) : ℚ) = num / den / 2 ^ e * ((den * twoTo e : ℕ) : ℚ) := by
  have hden' : (0 : ℚ) < den := Nat.cast_pos.mpr hden
  have he := two_zpow_pos e
  rw [Nat.cast_mul, Nat.cast_mul, twoTo_cast e]
  field_simp

theorem scaled_pos {den : ℕ} (hden : 0 < den) (e : ℤ) : 0 < den * twoTo e :=
  Nat.mul_pos hden (Nat.pow_pos (by decide))

/-- A quotient that is within half a unit of `m · 2 ^ e` is rounded to `m` units. -/
theorem scaledRound_eq {num den m : ℕ} {e : ℤ} (hden : 0 < den)
    (hlow : ((m : ℚ) - 1 / 2) * 2 ^ e ≤ num / den) (hhigh : (num / den : ℚ) ≤ (m + 1 / 2) * 2 ^ e)
    (hodd : m % 2 = 1 →
      ((m : ℚ) - 1 / 2) * 2 ^ e < num / den ∧ (num / den : ℚ) < (m + 1 / 2) * 2 ^ e) :
    scaledRound num den e = m := by
  have he := two_zpow_pos e
  have hD : (0 : ℚ) < (den * twoTo e : ℕ) := Nat.cast_pos.mpr (scaled_pos hden e)
  have hN := scaled_cast num hden e
  -- the quotient in units
  obtain ⟨x, hx⟩ : ∃ x : ℚ, (num / den : ℚ) = x * 2 ^ e := ⟨num / den / 2 ^ e, by field_simp⟩
  rw [hx, mul_div_cancel_right₀ x he.ne'] at hN
  rw [hx] at hlow hhigh hodd
  have hlow' : (m : ℚ) - 1 / 2 ≤ x := le_of_mul_le_mul_right hlow he
  have hhigh' : x ≤ m + 1 / 2 := le_of_mul_le_mul_right hhigh he
  rw [scaledRound]
  refine roundDiv_eq (scaled_pos hden e) ?_ ?_ ?_
  · have : (2 * (((den * twoTo e : ℕ) : ℚ) * m)) ≤ 2 * ((num * twoTo (-e) : ℕ) : ℚ)
        + ((den * twoTo e : ℕ) : ℚ) := by
      rw [hN]
      have hscaled := mul_le_mul_of_nonneg_left hlow' hD.le
      linarith
    exact_mod_cast this
  · have : 2 * ((num * twoTo (-e) : ℕ) : ℚ) ≤ 2 * (((den * twoTo e : ℕ) : ℚ) * m)
        + ((den * twoTo e : ℕ) : ℚ) := by
      rw [hN]
      have hscaled := mul_le_mul_of_nonneg_left hhigh' hD.le
      linarith
    exact_mod_cast this
  · intro htie
    by_contra hm
    obtain ⟨hlow'', hhigh''⟩ := hodd (by omega)
    have h1 : (m : ℚ) - 1 / 2 < x := lt_of_mul_lt_mul_right hlow'' he.le
    have h2 : x < m + 1 / 2 := lt_of_mul_lt_mul_right hhigh'' he.le
    rcases htie with htie | htie
    · have : (2 * (((den * twoTo e : ℕ) : ℚ) * m)) = 2 * ((num * twoTo (-e) : ℕ) : ℚ)
          + ((den * twoTo e : ℕ) : ℚ) := by exact_mod_cast htie
      rw [hN] at this
      have hscaled := mul_lt_mul_of_pos_left h1 hD
      linarith
    · have : 2 * ((num * twoTo (-e) : ℕ) : ℚ) = 2 * (((den * twoTo e : ℕ) : ℚ) * m)
          + ((den * twoTo e : ℕ) : ℚ) := by exact_mod_cast htie
      rw [hN] at this
      have hscaled := mul_lt_mul_of_pos_left h2 hD
      linarith

theorem Nearest.scaledRound_eq {num den m : ℕ} {e : ℤ} (hden : 0 < den)
    (h : Nearest m e (num / den)) : scaledRound num den e = m := by
  have hle : ((m : ℚ) - 1 / 2) * 2 ^ e ≤ (m - gapBelow m e) * 2 ^ e :=
    mul_le_mul_of_nonneg_right (by linarith [gapBelow_le m e]) (two_zpow_pos e).le
  exact Number.scaledRound_eq hden (hle.trans h.low) h.high
    fun hodd => ⟨lt_of_le_of_lt hle (h.odd hodd).1, (h.odd hodd).2⟩

theorem two_zpow_eq_double (e : ℤ) : (2 : ℚ) ^ e = 2 * 2 ^ (e - 1) := by
  rw [show e = 1 + (e - 1) by ring, two_zpow_add]
  norm_num

/-- Of the doubles with a smaller exponent than theirs only the power of two has numbers nearest to
it that are below that power. -/
theorem Nearest.eq_two_pow {m : ℕ} {e : ℤ} {q : ℚ} (h : Nearest m e q) (hfilled : 2 ^ 52 ≤ m)
    (hlow : q < 2 ^ (52 + e)) : m = 2 ^ 52 := by
  rw [two_zpow_add] at hlow
  have hmlt : (m : ℚ) - gapBelow m e < 2 ^ (52 : ℤ) :=
    lt_of_mul_lt_mul_right (lt_of_le_of_lt h.low hlow) (two_zpow_pos e).le
  have hm : (m : ℚ) < 2 ^ 52 + 1 := by
    have := gapBelow_le m e
    rw [show ((2 : ℚ) ^ (52 : ℤ)) = 2 ^ 52 by norm_num] at hmlt
    linarith
  have : m < 2 ^ 52 + 1 := by exact_mod_cast hm
  omega

/-- Below a power of two the units are halves, and what is nearest to the power is within half of
one of it. -/
theorem Nearest.low_of_two_pow {e : ℤ} {q : ℚ} (h : Nearest (2 ^ 52) e q)
    (hmin : minExponent < e) : ((2 ^ 53 : ℕ) - 1 / 2 : ℚ) * 2 ^ (e - 1) ≤ q := by
  have hgap : gapBelow (2 ^ 52) e = 1 / 4 := by rw [gapBelow, if_pos ⟨rfl, hmin⟩]
  have hlow := h.low
  rw [hgap, two_zpow_eq_double] at hlow
  push_cast at hlow ⊢
  linarith

/-- A quotient that is just below a power of two is rounded up to it. -/
theorem ofRatio_of_nearest_two_pow {num den : ℕ} {e : ℤ} (negative : Bool) (hnum : 0 < num)
    (hden : 0 < den) (hmin : minExponent < e) (hmax : e ≤ maxExponent)
    (h : Nearest (2 ^ 52) e (num / den)) (hlow : (num / den : ℚ) < 2 ^ (52 + e)) :
    ofRatio negative num den = .finite negative (2 ^ 52) e := by
  have hpos := two_zpow_pos (e - 1)
  have hbelow := h.low_of_two_pow hmin
  have habove : (num / den : ℚ) < (2 ^ 53 : ℕ) * 2 ^ (e - 1) := by
    rw [two_zpow_add, two_zpow_eq_double e] at hlow
    push_cast
    norm_num at hlow ⊢
    linarith
  have hlog : floorLog2 num den = 51 + e := by
    refine floorLog2_eq hnum hden ?_ ?_
    · rw [show 51 + e = 52 + (e - 1) by ring, two_zpow_add]
      refine le_trans ?_ hbelow
      exact mul_le_mul_of_nonneg_right (by norm_num) hpos.le
    · rw [show 51 + e + 1 = 52 + e by ring]
      exact hlow
  have hprec : precision - 1 = 52 := rfl
  have hexp : max (floorLog2 num den - 52) minExponent = e - 1 := by omega
  have hround : Binary64.scaledRound num den (e - 1) = 2 ^ 53 := by
    refine Number.scaledRound_eq hden hbelow (habove.le.trans ?_) fun hodd => ?_
    · exact mul_le_mul_of_nonneg_right (by norm_num) hpos.le
    · exact absurd hodd (by norm_num)
  have htwo : twoTo precision = 2 ^ 53 ∧ twoTo 52 = 2 ^ 52 := ⟨rfl, rfl⟩
  simp [ofRatio, hnum.ne', hprec, hexp, hround, not_lt.mpr hmax, htwo]

/-- A quotient that is nearest to a double in normal form is rounded to it. -/
theorem ofRatio_of_nearest {num den m : ℕ} {e : ℤ} (negative : Bool) (hnum : 0 < num)
    (hden : 0 < den) (hnormal : Normal m e) (h : Nearest m e (num / den)) :
    ofRatio negative num den = .finite negative m e := by
  have hmin := hnormal.exponent_ge
  -- the exponent is that of the double unless the quotient is below a power of two
  have hsame : max (floorLog2 num den - 52) minExponent = e →
      ofRatio negative num den = .finite negative m e := by
    intro hexp
    have hprec : precision - 1 = 52 := rfl
    have hne : m ≠ twoTo precision := Nat.ne_of_lt hnormal.significand_lt
    simp [ofRatio, hnum.ne', hprec, hexp, h.scaledRound_eq hden, hne,
      not_lt.mpr hnormal.exponent_le]
  by_cases hlow : (2 : ℚ) ^ (52 + e) ≤ num / den
  · have hupper : (num / den : ℚ) < 2 ^ (52 + e + 1) := by
      have hm : (m : ℚ) + 1 ≤ 2 ^ (53 : ℤ) := by exact_mod_cast hnormal.significand_lt
      rw [show 52 + e + 1 = 53 + e by ring, two_zpow_add]
      refine lt_of_le_of_lt h.high (mul_lt_mul_of_pos_right ?_ (two_zpow_pos e))
      linarith
    have hlog := floorLog2_eq hnum hden hlow hupper
    exact hsame (by omega)
  · rw [not_le] at hlow
    rcases Int.le_iff_lt_or_eq.mp hmin with hlt | heq
    · have hfilled := hnormal.filled.resolve_right (by omega)
      obtain rfl := h.eq_two_pow hfilled hlow
      exact ofRatio_of_nearest_two_pow negative hnum hden hlt hnormal.exponent_le h hlow
    · have hlog : floorLog2 num den < 52 + e :=
        (zpow_lt_zpow_iff_right₀ (by norm_num : (1 : ℚ) < 2)).mp
          (lt_of_le_of_lt (floorLog2_spec hnum hden).1 hlow)
      exact hsame (by omega)

/-! ## 5. Normal form -/

/-- A double in normal form, if it is finite. -/
def Binary64.IsNormal : Binary64 → Prop
  | .finite _ m e => Normal m e
  | _ => True

theorem normal_zero : Normal 0 minExponent :=
  ⟨by norm_num, le_refl _, by decide, .inr rfl⟩

theorem isNormal_neg {x : Binary64} (h : x.IsNormal) : x.neg.IsNormal := by
  cases x <;> exact h

theorem roundDiv_le {num den k : ℕ} (hden : 0 < den) (h : num ≤ den * k) :
    roundDiv num den ≤ k := by
  have hcut := Nat.div_add_mod num den
  have hle : num / den ≤ k := Nat.div_le_of_le_mul h
  rw [roundDiv]
  rcases Nat.eq_or_lt_of_le hle with heq | hlt
  · rw [heq] at hcut ⊢
    rw [if_pos (by omega)]
  · split
    · omega
    · split <;> omega

theorem le_roundDiv {num den k : ℕ} (hden : 0 < den) (h : den * k ≤ num) :
    k ≤ roundDiv num den := by
  have hle : k ≤ num / den := (Nat.le_div_iff_mul_le hden).mpr (by rwa [Nat.mul_comm] at h)
  rw [roundDiv]
  split
  · exact hle
  · split <;> omega

/-- What is rounded lies between the powers of two of its exponent. -/
theorem scaledRound_bounds {num den : ℕ} (hnum : 0 < num) (hden : 0 < den) {e : ℤ}
    (he : floorLog2 num den - 52 ≤ e) :
    Binary64.scaledRound num den e ≤ 2 ^ 53 ∧
      (e = floorLog2 num den - 52 → 2 ^ 52 ≤ Binary64.scaledRound num den e) := by
  obtain ⟨h1, h2⟩ := floorLog2_spec hnum hden
  have hD : (0 : ℚ) < (den * twoTo e : ℕ) := Nat.cast_pos.mpr (scaled_pos hden e)
  have hN := scaled_cast num hden e
  have hpos := two_zpow_pos e
  constructor
  · refine roundDiv_le (scaled_pos hden e) ?_
    have hq : (num / den / 2 ^ e : ℚ) ≤ 2 ^ 53 := by
      rw [div_le_iff₀ hpos, show ((2 : ℚ) ^ 53) = 2 ^ (53 : ℤ) by norm_num, ← two_zpow_add]
      exact h2.le.trans (zpow_le_zpow_right₀ (by norm_num) (by omega))
    have : ((num * twoTo (-e) : ℕ) : ℚ) ≤ ((den * twoTo e : ℕ) : ℚ) * 2 ^ 53 := by
      rw [hN, mul_comm]
      exact mul_le_mul_of_nonneg_left hq hD.le
    exact_mod_cast this
  · intro hexp
    refine le_roundDiv (scaled_pos hden e) ?_
    have hq : (2 : ℚ) ^ 52 ≤ num / den / 2 ^ e := by
      rw [le_div_iff₀ hpos, show ((2 : ℚ) ^ 52) = 2 ^ (52 : ℤ) by norm_num, ← two_zpow_add]
      rwa [show 52 + e = floorLog2 num den by omega]
    have : ((den * twoTo e : ℕ) : ℚ) * 2 ^ 52 ≤ ((num * twoTo (-e) : ℕ) : ℚ) := by
      rw [hN, mul_comm]
      exact mul_le_mul_of_nonneg_right hq hD.le
    exact_mod_cast this

/-- Rounding a quotient yields a double in normal form. -/
theorem isNormal_ofRatio (negative : Bool) (num : ℕ) {den : ℕ} (hden : 0 < den) :
    (ofRatio negative num den).IsNormal := by
  rcases Nat.eq_zero_or_pos num with rfl | hnum
  · exact normal_zero
  · have hmin : minExponent ≤ max (floorLog2 num den - 52) minExponent := le_max_right _ _
    obtain ⟨hle, hge⟩ := scaledRound_bounds hnum hden
      (le_max_left (floorLog2 num den - 52) minExponent)
    have hprec : precision - 1 = 52 ∧ twoTo precision = 2 ^ 53 ∧ twoTo 52 = 2 ^ 52 :=
      ⟨rfl, rfl, rfl⟩
    simp only [ofRatio, hnum.ne', if_false, hprec]
    generalize hE : max (floorLog2 num den - 52) minExponent = e at *
    by_cases hcarry : Binary64.scaledRound num den e = 2 ^ 53
    · rw [if_pos hcarry]
      split
      · trivial
      · exact ⟨by norm_num, by omega, by omega, .inl (le_refl _)⟩
    · rw [if_neg hcarry]
      split
      · trivial
      · refine ⟨lt_of_le_of_ne hle hcarry, hmin, by omega, ?_⟩
        by_cases hexp : e = floorLog2 num den - 52
        · exact .inl (hge hexp)
        · exact .inr (by omega)

theorem isNormal_ofDecimal (negative : Bool) (digits : ℕ) (exponent : ℤ) :
    (ofDecimal negative digits exponent).IsNormal := by
  rw [ofDecimal]
  split
  · exact normal_zero
  · split
    · trivial
    · exact isNormal_ofRatio _ _ (Nat.pow_pos (by decide))

end ViewContract.Number
