/-
ViewContract.Proofs.Text.Hex — numbers in base sixteen.

An escape writes a character as digits of base sixteen. The digits are a few ASCII characters
(`digitChar_spec`), and they give back the number (`ofDigits_hexDigits`).
-/
import ViewContract.Text.Digit
import ViewContract.Text.Shown
import Mathlib.Algebra.Group.Nat.Defs

namespace ViewContract.Text

theorem digitChar_spec {d : Nat} (hd : d < 16) :
    digitBelow? 16 d.digitChar = some d ∧ d.digitChar.toNat < 0x80 ∧ d.digitChar ≠ '"' ∧
      d.digitChar ≠ '\\' ∧ 0x20 ≤ d.digitChar.toNat := by
  have hall : (List.range 16).all (fun d => digitBelow? 16 d.digitChar = some d ∧
      d.digitChar.toNat < 0x80 ∧ d.digitChar ≠ '"' ∧ d.digitChar ≠ '\\' ∧
      0x20 ≤ d.digitChar.toNat) = true := by
    decide
  simpa using List.all_eq_true.mp hall d (List.mem_range.mpr hd)

theorem exists_of_mem_toDigits {n : Nat} {c : Char} (h : c ∈ Nat.toDigits 16 n) :
    ∃ d < 16, c = d.digitChar := by
  induction n using Nat.strongRecOn with
  | ind n ih =>
    by_cases hn : n < 16
    · rw [Nat.toDigits_of_lt_base hn, List.mem_singleton] at h
      exact ⟨n, hn, h⟩
    · rw [Nat.toDigits_of_base_le (by decide) (by omega), List.mem_append,
        List.mem_singleton] at h
      rcases h with h | h
      · exact ih (n / 16) (by omega) h
      · exact ⟨n % 16, Nat.mod_lt n (by decide), h⟩

theorem exists_of_mem_hexDigits {width n : Nat} {c : Char} (h : c ∈ hexDigits width n) :
    ∃ d < 16, c = d.digitChar := by
  rcases List.mem_append.mp h with h | h
  · exact ⟨0, by decide, (List.mem_replicate.mp h).2⟩
  · exact exists_of_mem_toDigits h

theorem length_hexDigits {width n : Nat} (hwidth : 0 < width) (h : n < 16 ^ width) :
    (hexDigits width n).length = width := by
  have := (Nat.length_toDigits_le_iff (by decide) hwidth).mpr h
  simp [hexDigits]
  omega

theorem ofDigits_append (base : Nat) (ds : List Nat) (d : Nat) :
    ofDigits base (ds ++ [d]) = ofDigits base ds * base + d := by
  simp [ofDigits]

/-- The digits of a number in base sixteen give the number. -/
theorem ofDigits_hexDigits (width n : Nat) :
    ofDigits 16 ((hexDigits width n).filterMap (digitBelow? 16)) = n := by
  have hzeros : ∀ (k : Nat) (ds : List Nat),
      ofDigits 16 ((List.replicate k '0').filterMap (digitBelow? 16) ++ ds) = ofDigits 16 ds := by
    intro k
    induction k with
    | zero => intro ds; rfl
    | succ k ih =>
      intro ds
      rw [List.replicate_succ, List.filterMap_cons_some (b := 0) (by decide), List.cons_append]
      exact ih ds
  rw [hexDigits, List.filterMap_append, hzeros]
  induction n using Nat.strongRecOn with
  | ind n ih =>
    by_cases hn : n < 16
    · rw [Nat.toDigits_of_lt_base hn, List.filterMap_cons_some (digitChar_spec hn).1]
      simp [ofDigits]
    · have hmod : n % 16 < 16 := Nat.mod_lt n (by decide)
      rw [Nat.toDigits_of_base_le (by decide) (by omega), List.filterMap_append,
        List.filterMap_cons_some (digitChar_spec hmod).1, List.filterMap_nil, ofDigits_append,
        ih (n / 16) (by omega)]
      omega

theorem lt_of_mem_hexDigits {width n : Nat} {c : Char} (h : c ∈ hexDigits width n) :
    c.toNat < 0x80 := by
  obtain ⟨d, hd, rfl⟩ := exists_of_mem_hexDigits h
  exact (digitChar_spec hd).2.1

end ViewContract.Text
