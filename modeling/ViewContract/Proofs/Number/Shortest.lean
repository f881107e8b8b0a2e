/-
ViewContract.Proofs.Number.Shortest — the shortest decimal of a double is nearest to it.

`Shortest.decimal` tries powers of ten from the greatest down and takes the first that has
a multiple in the interval of the double. Two things have to be shown:

  §1 the interval, held as natural numbers over a common denominator, is the interval of the
     numbers that are nearest to the double (`holds_iff`), so whatever is found is nearest.
  §2 something is found: seventeen digits are always enough (`exists_nearest?`). The power
     of ten is then below `10 ^ -16` of the value. Were no multiple in the interval, the
     interval would be no wider than this, but a significand below `2 ^ 53` makes it wider.

What is found is rounded to the double again (`ofDecimal_decimal`).
-/
import ViewContract.Number.Shortest
import ViewContract.Proofs.Number.Rounding

namespace ViewContract.Number

open Binary64 Shortest

/-! ## 1. The interval -/

theorem ten_zpow_pos (p : ℤ) : (0 : ℚ) < 10 ^ p :=
  zpow_pos (by norm_num) p

/-- The denominator of an interval in units of `10 ^ p`. -/
theorem denominator_pos (m : ℕ) (e p : ℤ) : 0 < ((interval m e).inUnits p).denominator :=
  Nat.mul_pos (Nat.pow_pos (by decide)) (Nat.pow_pos (by decide))

/-- A number `k · 2 ^ (e - 2)` over the denominator of the interval, in units. -/
theorem over_denominator (m k : ℕ) (e p : ℤ) :
    ((k * twoTo (e - 2) * tenTo (-p) : ℕ) : ℚ)
      = k / 4 * 2 ^ e / 10 ^ p * ((interval m e).inUnits p).denominator := by
  have h2 := twoTo_cast (e - 2)
  rw [show -(e - 2) = 2 - e by ring] at h2
  have h10 := ten_zpow_pos p
  have he : (2 : ℚ) ^ (e - 2) = 2 ^ e / 4 := by
    rw [zpow_sub₀ (by norm_num)]
    norm_num
  simp only [interval, Interval.inUnits, Nat.cast_mul]
  rw [h2, he, tenTo_cast p]
  field_simp

theorem value_inUnits (m : ℕ) (e p : ℤ) :
    (((interval m e).inUnits p).value : ℚ)
      = m * 2 ^ e / 10 ^ p * ((interval m e).inUnits p).denominator := by
  have h := over_denominator m (4 * m) e p
  rw [show (((4 * m : ℕ) : ℚ) / 4) = m by push_cast; ring] at h
  exact h

theorem high_inUnits (m : ℕ) (e p : ℤ) :
    (((interval m e).inUnits p).high : ℚ)
      = (m + 1 / 2) * 2 ^ e / 10 ^ p * ((interval m e).inUnits p).denominator := by
  have h := over_denominator m (4 * m + 2) e p
  rw [show (((4 * m + 2 : ℕ) : ℚ) / 4) = m + 1 / 2 by push_cast; ring] at h
  exact h

theorem low_inUnits {m : ℕ} (hm : 0 < m) (e p : ℤ) :
    (((interval m e).inUnits p).low : ℚ)
      = (m - gapBelow m e) * 2 ^ e / 10 ^ p * ((interval m e).inUnits p).denominator := by
  have htwo : twoTo (precision - 1) = 2 ^ 52 := rfl
  have hgap : ∃ k : ℕ, k ≤ 4 * m ∧ (((4 * m - k : ℕ) : ℚ) / 4) = m - gapBelow m e ∧
      ((interval m e).inUnits p).low = (4 * m - k) * twoTo (e - 2) * tenTo (-p) := by
    by_cases h : m = 2 ^ 52 ∧ minExponent < e
    · refine ⟨1, by omega, ?_, ?_⟩
      · rw [gapBelow, if_pos h, Nat.cast_sub (by omega)]
        push_cast
        ring
      · simp only [interval, Interval.inUnits, htwo]
        rw [if_pos (by simpa using h)]
    · refine ⟨2, by omega, ?_, ?_⟩
      · rw [gapBelow, if_neg h, Nat.cast_sub (by omega)]
        push_cast
        ring
      · simp only [interval, Interval.inUnits, htwo]
        rw [if_neg (by simpa using h)]
  obtain ⟨k, hk, hq, hlow⟩ := hgap
  rw [hlow, over_denominator m, hq]

/-- A multiple of a power of ten is in the interval if it is nearest to the double. -/
theorem holds_iff {m : ℕ} (hm : 0 < m) (e p : ℤ) (u : ℕ) :
    ((interval m e).inUnits p).holds u = true ↔ Nearest m e (u * 10 ^ p) := by
  have hD : (0 : ℚ) < ((interval m e).inUnits p).denominator :=
    Nat.cast_pos.mpr (denominator_pos m e p)
  have hlow := low_inUnits hm e p
  have hhigh := high_inUnits m e p
  have h10 := ten_zpow_pos p
  -- both sides compare with the ends of the interval
  have hle : ∀ (k : ℕ) (q : ℚ), (k : ℚ) = q / 10 ^ p * ((interval m e).inUnits p).denominator →
      (k ≤ u * ((interval m e).inUnits p).denominator ↔ q ≤ u * 10 ^ p) := by
    intro k q hk
    rw [← Nat.cast_le (α := ℚ), hk, Nat.cast_mul, mul_le_mul_iff_left₀ hD, div_le_iff₀ h10]
  have hge : ∀ (k : ℕ) (q : ℚ), (k : ℚ) = q / 10 ^ p * ((interval m e).inUnits p).denominator →
      (u * ((interval m e).inUnits p).denominator ≤ k ↔ u * 10 ^ p ≤ q) := by
    intro k q hk
    rw [← Nat.cast_le (α := ℚ), hk, Nat.cast_mul, mul_le_mul_iff_left₀ hD, le_div_iff₀ h10]
  have hclosed : ((interval m e).inUnits p).closed = decide (m % 2 = 0) := rfl
  rw [Interval.holds, hclosed]
  by_cases heven : m % 2 = 0
  · simp only [heven, decide_true, if_true, Bool.and_eq_true, decide_eq_true_eq, hle _ _ hlow,
      hge _ _ hhigh]
    exact ⟨fun h => ⟨h.1, h.2, fun hodd => by omega⟩, fun h => ⟨h.low, h.high⟩⟩
  · simp only [heven, decide_false, Bool.false_eq_true, if_false, Bool.and_eq_true,
      decide_eq_true_eq, ← not_le, hge _ _ hlow, hle _ _ hhigh]
    simp only [not_le]
    exact ⟨fun h => ⟨h.1.le, h.2.le, fun _ => h⟩, fun h => h.odd (by omega)⟩

/-- What `nearest?` finds is in the interval. -/
theorem holds_of_nearest? {i : Interval} {u : ℕ} (h : i.nearest? = some u) : i.holds u = true := by
  rw [Interval.nearest?] at h
  split at h
  · rename_i hbelow habove
    obtain rfl := Option.some.inj h
    rw [roundDiv]
    split
    · exact hbelow
    · split
      · exact habove
      · rcases Nat.mod_two_eq_zero_or_one (i.value / i.denominator) with h0 | h1
        · rw [h0]
          exact hbelow
        · rw [h1]
          exact habove
  · rename_i hbelow _
    obtain rfl := Option.some.inj h
    exact hbelow
  · rename_i habove
    obtain rfl := Option.some.inj h
    exact habove
  · cases h

/-! ## 2. Seventeen digits -/

theorem lt_ten_pow_decimalLength (n : ℕ) : n < 10 ^ decimalLength n :=
  (Nat.length_toDigits_le_iff (by decide) Nat.length_toDigits_pos).mp (le_refl _)

theorem ten_pow_le_of_pos {n : ℕ} (hn : 0 < n) : 10 ^ (decimalLength n - 1) ≤ n := by
  rcases Nat.eq_zero_or_pos (decimalLength n - 1) with h | h
  · rw [h]
    exact hn
  · refine Nat.le_of_not_lt fun hlt => ?_
    have := (Nat.length_toDigits_le_iff (by decide) h).mpr hlt
    rw [decimalLength] at this h
    omega

theorem decimalLength_pos (n : ℕ) : 0 < decimalLength n :=
  Nat.length_toDigits_pos

/-- The least positive double is above `10 ^ -330`. -/
theorem one_le_scaled {m : ℕ} {e : ℤ} (hm : 0 < m) (he : minExponent ≤ e) :
    (1 : ℚ) ≤ m * 2 ^ e * 10 ^ (330 : ℤ) := by
  have hm' : (1 : ℚ) ≤ m := by exact_mod_cast hm
  have hpow : (2 : ℚ) ^ (1074 : ℕ) ≤ 10 ^ (330 : ℕ) := by
    calc (2 : ℚ) ^ 1074 = (2 ^ 53) ^ 20 * 2 ^ 14 := by rw [← pow_mul, ← pow_add]
      _ ≤ (10 ^ 16) ^ 20 * 10 ^ 10 := by
          refine mul_le_mul (pow_le_pow_left₀ (by norm_num) (by norm_num) 20) (by norm_num)
            (by norm_num) (by norm_num)
      _ = 10 ^ 330 := by rw [← pow_mul, ← pow_add]
  have hmin : (2 : ℚ) ^ (-1074 : ℤ) ≤ 2 ^ e := zpow_le_zpow_right₀ (by norm_num) he
  have hleast : (1 : ℚ) ≤ 2 ^ (-1074 : ℤ) * 10 ^ (330 : ℤ) := by
    rw [zpow_neg, ← div_eq_inv_mul, le_div_iff₀ (by positivity), one_mul]
    exact_mod_cast hpow
  calc (1 : ℚ) ≤ 2 ^ (-1074 : ℤ) * 10 ^ (330 : ℤ) := hleast
    _ ≤ 2 ^ e * 10 ^ (330 : ℤ) := mul_le_mul_of_nonneg_right hmin (by positivity)
    _ = 1 * 2 ^ e * 10 ^ (330 : ℤ) := by ring
    _ ≤ m * 2 ^ e * 10 ^ (330 : ℤ) := by
        refine mul_le_mul_of_nonneg_right ?_ (by positivity)
        exact mul_le_mul_of_nonneg_right hm' (two_zpow_pos e).le

/-- The power of ten below a double. -/
theorem places_le {m : ℕ} {e : ℤ} (hm : 0 < m) (he : minExponent ≤ e) :
    (10 : ℚ) ^ ((interval m e).places - 1) ≤ m * 2 ^ e := by
  have hD : 0 < (interval m e).denominator := Nat.pow_pos (by decide)
  have hD' : (0 : ℚ) < (interval m e).denominator := Nat.cast_pos.mpr hD
  have h330 := ten_zpow_pos 330
  -- the value over its denominator, times `10 ^ 330`
  have hvalue : (((interval m e).value * tenTo 330 : ℕ) : ℚ)
      = m * 2 ^ e * 10 ^ (330 : ℤ) * (interval m e).denominator := by
    have h := value_inUnits m e 0
    simp only [Interval.inUnits, tenTo, zpow_zero, div_one, Int.neg_zero, Int.toNat_zero,
      Nat.pow_eq, pow_zero, Nat.mul_one] at h
    rw [Nat.cast_mul, h, tenTo_cast 330, show tenTo (-330) = 1 from rfl, Nat.cast_one, mul_one,
      mul_right_comm]
  have hpos : 0 < (interval m e).value * tenTo 330 / (interval m e).denominator := by
    refine (Nat.le_div_iff_mul_le hD).mpr ?_
    rw [Nat.one_mul, ← Nat.cast_le (α := ℚ), hvalue]
    exact le_mul_of_one_le_left hD'.le (one_le_scaled hm he)
  have hfloor := ten_pow_le_of_pos hpos
  have hlen := decimalLength_pos ((interval m e).value * tenTo 330 / (interval m e).denominator)
  have hle : (((10 : ℕ) ^ (decimalLength ((interval m e).value * tenTo 330 /
      (interval m e).denominator) - 1) : ℕ) : ℚ) ≤ m * 2 ^ e * 10 ^ (330 : ℤ) := by
    have := (Nat.le_div_iff_mul_le hD).mp hfloor
    rw [← Nat.cast_le (α := ℚ), Nat.cast_mul, hvalue] at this
    exact le_of_mul_le_mul_right this hD'
  rw [Interval.places]
  generalize decimalLength ((interval m e).value * tenTo 330 / (interval m e).denominator) = n at *
  have hsplit : (10 : ℚ) ^ ((n : ℤ) - 330 - 1) * 10 ^ (330 : ℤ) = 10 ^ (n - 1) := by
    rw [← zpow_add₀ (by norm_num), ← zpow_natCast]
    congr 1
    omega
  refine le_of_mul_le_mul_right ?_ h330
  rw [hsplit]
  rwa [Nat.cast_pow, Nat.cast_ofNat] at hle

/-- The greatest multiple of a power of ten up to the value. -/
theorem floor_mul_le (m : ℕ) (e p : ℤ) :
    (((interval m e).inUnits p).value / ((interval m e).inUnits p).denominator : ℕ)
      * (10 : ℚ) ^ p ≤ m * 2 ^ e := by
  have hD : (0 : ℚ) < ((interval m e).inUnits p).denominator :=
    Nat.cast_pos.mpr (denominator_pos m e p)
  have h := Nat.div_mul_le_self ((interval m e).inUnits p).value
    ((interval m e).inUnits p).denominator
  rw [← Nat.cast_le (α := ℚ), Nat.cast_mul, value_inUnits, mul_le_mul_iff_left₀ hD] at h
  exact (le_div_iff₀ (ten_zpow_pos p)).mp h

/-- The next multiple is beyond the value. -/
theorem lt_succ_floor_mul (m : ℕ) (e p : ℤ) :
    m * 2 ^ e < ((((interval m e).inUnits p).value /
      ((interval m e).inUnits p).denominator + 1 : ℕ) : ℚ) * 10 ^ p := by
  have hD : (0 : ℚ) < ((interval m e).inUnits p).denominator :=
    Nat.cast_pos.mpr (denominator_pos m e p)
  have h := Nat.lt_mul_div_succ ((interval m e).inUnits p).value (denominator_pos m e p)
  rw [Nat.mul_comm, ← Nat.cast_lt (α := ℚ), Nat.cast_mul, value_inUnits,
    mul_lt_mul_iff_left₀ hD] at h
  exact (div_lt_iff₀ (ten_zpow_pos p)).mp h

/-- If neither multiple next to a double is nearest to it, then the unit is no less than the width
of its interval. -/
theorem width_le_of_skipped {m k : ℕ} {e p : ℤ} (hbelow : (k : ℚ) * 10 ^ p ≤ m * 2 ^ e)
    (habove : m * 2 ^ e < ((k + 1 : ℕ) : ℚ) * 10 ^ p) (hk : ¬ Nearest m e (k * 10 ^ p))
    (hsucc : ¬ Nearest m e ((k + 1 : ℕ) * 10 ^ p)) :
    (1 / 2 + gapBelow m e) * 2 ^ e ≤ 10 ^ p := by
  have h2 := two_zpow_pos e
  have hgap := gapBelow_pos m e
  have hlow : (k : ℚ) * 10 ^ p ≤ (m - gapBelow m e) * 2 ^ e := by
    by_contra hlt
    rw [not_le] at hlt
    have hhigh : (k : ℚ) * 10 ^ p < (m + 1 / 2) * 2 ^ e := by nlinarith
    exact hk ⟨hlt.le, hhigh.le, fun _ => ⟨hlt, hhigh⟩⟩
  have hhigh : (m + 1 / 2) * 2 ^ e ≤ ((k + 1 : ℕ) : ℚ) * 10 ^ p := by
    by_contra hlt
    rw [not_le] at hlt
    have hlow : (m - gapBelow m e) * 2 ^ e < ((k + 1 : ℕ) : ℚ) * 10 ^ p := by nlinarith
    exact hsucc ⟨hlow.le, hlt.le, fun _ => ⟨hlow, hlt⟩⟩
  push_cast at hhigh
  linarith

/-- A unit of the seventeenth digit is less than the width of the interval. -/
theorem unit_lt_width {m : ℕ} {e p : ℤ} (hnormal : Normal m e)
    (hunit : (10 : ℚ) ^ p * 10 ^ 16 ≤ m * 2 ^ e) :
    (10 : ℚ) ^ p < (1 / 2 + gapBelow m e) * 2 ^ e := by
  have hwide : (m : ℚ) < (1 / 2 + gapBelow m e) * 10 ^ 16 := by
    rw [gapBelow]
    split
    · rename_i hhalf
      rw [hhalf.1]
      norm_num
    · have hm53 : (m : ℚ) + 1 ≤ 2 ^ 53 := by exact_mod_cast hnormal.significand_lt
      linarith [show (2 : ℚ) ^ 53 < 10 ^ 16 by norm_num]
  have hscaled := mul_lt_mul_of_pos_right hwide (two_zpow_pos e)
  linarith

/-- With seventeen digits there is a multiple in the interval. -/
theorem exists_nearest? {m : ℕ} {e : ℤ} (hm : 0 < m) (hnormal : Normal m e) :
    ∃ u, ((interval m e).inUnits ((interval m e).places - 17)).nearest? = some u := by
  generalize hp : (interval m e).places - 17 = p
  have hunit : (10 : ℚ) ^ p * 10 ^ 16 ≤ m * 2 ^ e := by
    have h := places_le hm hnormal.exponent_ge
    rw [show (interval m e).places - 1 = p + 16 by omega, zpow_add₀ (by norm_num)] at h
    exact_mod_cast h
  have hbelow := floor_mul_le m e p
  have habove := lt_succ_floor_mul m e p
  rw [Interval.nearest?]
  generalize ((interval m e).inUnits p).value / ((interval m e).inUnits p).denominator = k at *
  have hone : ((interval m e).inUnits p).holds k = true ∨
      ((interval m e).inUnits p).holds (k + 1) = true := by
    by_contra hnone
    rw [not_or, holds_iff hm, holds_iff hm] at hnone
    exact absurd (width_le_of_skipped hbelow habove hnone.1 hnone.2)
      (not_le.mpr (unit_lt_width hnormal hunit))
  cases h1 : ((interval m e).inUnits p).holds k <;>
    cases h2 : ((interval m e).inUnits p).holds (k + 1) <;> simp [h1, h2] at hone ⊢

/-- The shortest decimal of a double is nearest to it. -/
theorem nearest_decimal {m : ℕ} {e : ℤ} (hm : 0 < m) (hnormal : Normal m e) :
    Nearest m e ((decimal m e).1 * 10 ^ (decimal m e).2) := by
  obtain ⟨u, hu⟩ := exists_nearest? hm hnormal
  have hdecimal : decimal m e = ((List.range 18).findSome? fun count : ℕ =>
      ((interval m e).inUnits ((interval m e).places - count)).nearest?.map
        fun digits => (digits, (interval m e).places - (count : ℤ))).getD
          ((interval m e).value / (interval m e).denominator, 0) := rfl
  rw [hdecimal]
  cases hfound : (List.range 18).findSome? fun count : ℕ =>
      ((interval m e).inUnits ((interval m e).places - count)).nearest?.map
        fun digits => (digits, (interval m e).places - (count : ℤ)) with
  | none =>
    have := List.findSome?_eq_none_iff.mp hfound 17 (List.mem_range.mpr (by norm_num))
    simp [hu] at this
  | some found =>
    obtain ⟨count, _, hcount⟩ := List.exists_of_findSome?_eq_some hfound
    obtain ⟨digits, hdigits, rfl⟩ := Option.map_eq_some_iff.mp hcount
    exact (holds_iff hm e _ digits).mp (holds_of_nearest? hdigits)

/-! ## 3. Back to the double -/

/-- The least positive double is so far above `10 ^ -331` that whatever is nearest to a double
is. -/
theorem Nearest.lower_bound {m : ℕ} {e : ℤ} {q : ℚ} (h : Nearest m e q) (hm : 0 < m)
    (he : minExponent ≤ e) : (10 : ℚ) ^ (-331 : ℤ) < q := by
  have h330 : (10 : ℚ) ^ (-330 : ℤ) ≤ m * 2 ^ e := by
    rw [zpow_neg]
    exact (inv_le_iff_one_le_mul₀ (ten_zpow_pos 330)).mpr (one_le_scaled hm he)
  have h331 : (10 : ℚ) ^ (-330 : ℤ) = 10 * 10 ^ (-331 : ℤ) := by
    rw [show (-330 : ℤ) = 1 + -331 by norm_num, zpow_add₀ (by norm_num), zpow_one]
  -- whatever is nearest to the double is at least half of it
  have hhalf : (m : ℚ) / 2 ≤ m - gapBelow m e := by
    have hm1 : (1 : ℚ) ≤ m := by exact_mod_cast hm
    linarith [gapBelow_le m e]
  have hmul := mul_le_mul_of_nonneg_right hhalf (two_zpow_pos e).le
  have hpos := ten_zpow_pos (-331)
  linarith [h.low]

/-- The greatest doubles are below `10 ^ 310`. -/
theorem Nearest.upper_bound {m : ℕ} {e : ℤ} {q : ℚ} (h : Nearest m e q) (hnormal : Normal m e) :
    q < 10 ^ (310 : ℤ) := by
  have hm53 : (m : ℚ) + 1 ≤ 2 ^ 53 := by exact_mod_cast hnormal.significand_lt
  calc q ≤ (m + 1 / 2) * 2 ^ e := h.high
    _ < 2 ^ 53 * 2 ^ e := mul_lt_mul_of_pos_right (by linarith) (two_zpow_pos e)
    _ ≤ 2 ^ 53 * 2 ^ (971 : ℤ) := by
        refine mul_le_mul_of_nonneg_left ?_ (by norm_num)
        exact zpow_le_zpow_right₀ (by norm_num) hnormal.exponent_le
    _ = (2 ^ 53) ^ 19 * 2 ^ 17 := by
        rw [show (2 : ℚ) ^ (971 : ℤ) = 2 ^ (971 : ℕ) from zpow_natCast 2 971, ← pow_mul,
          ← pow_add, ← pow_add]
    _ ≤ (10 ^ 16) ^ 19 * 10 ^ 6 := by
        refine mul_le_mul (pow_le_pow_left₀ (by norm_num) (by norm_num) 19) (by norm_num)
          (by norm_num) (by positivity)
    _ = 10 ^ (310 : ℤ) := by
        rw [show (10 : ℚ) ^ (310 : ℤ) = 10 ^ (310 : ℕ) from zpow_natCast 10 310, ← pow_mul,
          ← pow_add]

/-- The powers of ten around a decimal. -/
theorem decimal_bounds {digits : ℕ} (hdigits : 0 < digits) (power : ℤ) :
    (10 : ℚ) ^ ((decimalLength digits : ℤ) - 1 + power) ≤ digits * 10 ^ power ∧
      (digits : ℚ) * 10 ^ power < 10 ^ ((decimalLength digits : ℤ) + power) := by
  have h10 := ten_zpow_pos power
  have hlen := decimalLength_pos digits
  constructor
  · rw [zpow_add₀ (by norm_num), show (decimalLength digits : ℤ) - 1
      = ((decimalLength digits - 1 : ℕ) : ℤ) by omega, zpow_natCast]
    exact mul_le_mul_of_nonneg_right (by exact_mod_cast ten_pow_le_of_pos hdigits) h10.le
  · rw [zpow_add₀ (by norm_num), zpow_natCast]
    exact mul_lt_mul_of_pos_right (by exact_mod_cast lt_ten_pow_decimalLength digits) h10

/-- The decimals that are nearest to a double are not cut off for their size. -/
theorem places_of_nearest {m : ℕ} {e : ℤ} (hm : 0 < m) (hnormal : Normal m e) {digits : ℕ}
    {power : ℤ} (h : Nearest m e (digits * 10 ^ power)) :
    0 < digits ∧ -330 ≤ (decimalLength digits : ℤ) + power ∧
      (decimalLength digits : ℤ) + power ≤ 310 := by
  have hlower := h.lower_bound hm hnormal.exponent_ge
  have hdigits : 0 < digits := by
    refine Nat.pos_of_ne_zero fun h0 => ?_
    rw [h0, Nat.cast_zero, zero_mul] at hlower
    linarith [ten_zpow_pos (-331)]
  obtain ⟨hdown, hup⟩ := decimal_bounds hdigits power
  have hlt : ∀ {a b : ℤ}, (10 : ℚ) ^ a < 10 ^ b → a < b := fun h =>
    (zpow_lt_zpow_iff_right₀ (by norm_num)).mp h
  have hleast := hlt (hlower.trans hup)
  have hgreatest := hlt (lt_of_le_of_lt hdown (h.upper_bound hnormal))
  exact ⟨hdigits, by omega, by omega⟩

/-- A decimal that is nearest to a double in normal form is rounded to it. -/
theorem ofDecimal_of_nearest {m : ℕ} {e : ℤ} (negative : Bool) (hm : 0 < m)
    (hnormal : Normal m e) {digits : ℕ} {power : ℤ} (h : Nearest m e (digits * 10 ^ power)) :
    ofDecimal negative digits power = .finite negative m e := by
  obtain ⟨hdigits, hlow, hhigh⟩ := places_of_nearest hm hnormal h
  have hratio : ((digits * tenTo power : ℕ) : ℚ) / (tenTo (-power) : ℕ) = digits * 10 ^ power := by
    have := tenTo_pos (-power)
    rw [Nat.cast_mul, tenTo_cast power]
    field_simp
  have hsmall : (digits = 0 || decide ((decimalLength digits : ℤ) + power < -330)) = false := by
    simp
    omega
  have hgreat : ¬ 310 < (decimalLength digits : ℤ) + power := by omega
  simp only [ofDecimal, hsmall, Bool.false_eq_true, if_false, hgreat]
  exact ofRatio_of_nearest negative (Nat.mul_pos hdigits (Nat.pow_pos (by decide)))
    (Nat.pow_pos (by decide)) hnormal (by rw [hratio]; exact h)

end ViewContract.Number
