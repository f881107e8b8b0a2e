/-
ViewContract.Proofs.Text.Lowercase — lower case of ASCII text.

The table of capitals begins with the ASCII letters, and the characters with a lower case of
their own kind are no ASCII:

  §1 ASCII text is lowered character by character (`lower_ascii`), and what the table says of a
     character is checked for all 128.
  §2 the word for null. Only ASCII letters have its letters as their lower case, so a text reads
     as null exactly if it is the word in some case of letters (`lower_eq_null_iff`).
-/
import ViewContract.Proofs.Text.Ascii
import ViewContract.Text.Lowercase

namespace ViewContract.Text

/-! ## 1. ASCII text -/

/-- What holds of the first 128 characters holds of every ASCII character. -/
theorem forall_ascii {p : Char → Bool}
    (hall : (List.range 128).all (fun n => p (Char.ofNat n)) = true)
    {c : Char} (hc : c.toNat < 128) : p c = true := by
  have h := List.all_eq_true.mp hall c.toNat (List.mem_range.mpr hc)
  rwa [Char.ofNat_toNat] at h

theorem lower_ascii {t : Text} (ht : ∀ c ∈ t, c.toNat < 128) : lower t = t.map lowerChar := by
  have hafter : ∀ before : Text, lowerAfter before t = t.map lowerChar := by
    induction t with
    | nil => exact fun _ => rfl
    | cons c t ih =>
      intro before
      have hc := ht c List.mem_cons_self
      have hdotted : c ≠ '\u0130' := by
        rintro rfl
        exact absurd hc (by decide)
      have hsigma : c ≠ 'Σ' := by
        rintro rfl
        exact absurd hc (by decide)
      rw [lowerAfter, ih fun d hd => ht d (List.mem_cons_of_mem c hd)]
      simp [hdotted, hsigma]
  exact hafter []

/-- A part of an identifier is one in lower case, too. -/
theorem isIdentifierPart_lowerChar {c : Char} (hc : isIdentifierPart c = true) :
    isIdentifierPart (lowerChar c) = true := by
  have hascii : c.toNat < 128 := by
    have := isIdentifierPart_iff.mp hc
    omega
  have h := forall_ascii (p := fun c => !isIdentifierPart c || isIdentifierPart (lowerChar c))
    (by decide +kernel) hascii
  simpa [hc] using h

/-! ## 2. The word for null -/

/-- A run of capitals none of which has a lower case of a code point; the ASCII letters are left
out. -/
def Misses (code : Nat) (run : CaseRun) : Bool :=
  let (first, last, _, lower) := run
  first = 65 || code < lower || lower + (last - first) < code

theorem lowerCodePoint_of_misses {code n : Nat} {runs : List CaseRun}
    (hruns : ∀ run ∈ runs, run.1 ≠ 65 ∧ Misses code run = true) (h : lowerCodePoint runs n = code) :
    n = code := by
  induction runs with
  | nil => exact h
  | cons run runs ih =>
    obtain ⟨first, last, step, lower⟩ := run
    obtain ⟨hfirst, hmisses⟩ := hruns _ List.mem_cons_self
    rw [lowerCodePoint] at h
    split at h
    · exact h
    · split at h
      · rename_i hlow hrun
        simp only [Misses, Bool.or_eq_true, decide_eq_true_eq] at hmisses
        simp only [Bool.and_eq_true, decide_eq_true_eq] at hrun
        omega
      · exact ih (fun r hr => hruns r (List.mem_cons_of_mem _ hr)) h

/-- A letter that no other run of the table has as a lower case is that of its two forms only, which
are ASCII. -/
theorem ascii_of_lowerChar {c letter : Char} (hletter : 97 ≤ letter.toNat ∧ letter.toNat ≤ 122)
    (hmisses : (caseRuns.drop 1).all (fun run => run.1 ≠ 65 && Misses letter.toNat run) = true)
    (h : lowerChar c = letter) : c.toNat < 128 := by
  have hcode : lowerCodePoint caseRuns c.toNat = letter.toNat := by
    by_cases hvalid : (lowerCodePoint caseRuns c.toNat).isValidChar
    · have hchar : lowerChar c = Char.ofNatAux _ hvalid := dif_pos hvalid
      rw [hchar] at h
      exact congrArg Char.toNat h
    · have hchar : lowerChar c = '\x00' := dif_neg hvalid
      rw [hchar] at h
      obtain rfl := h
      exact absurd hletter.1 (by decide)
  have hcut : caseRuns = (65, 90, 1, 97) :: caseRuns.drop 1 := rfl
  rw [hcut, lowerCodePoint] at hcode
  split at hcode
  · omega
  · split at hcode
    · omega
    · have hcase : c.toNat = letter.toNat := by
        refine lowerCodePoint_of_misses (fun run hrun => ?_) hcode
        simpa using List.all_eq_true.mp hmisses run hrun
      omega

theorem lowerChar_ascii {c : Char} (hc : c.toNat < 128) : lowerChar c = c.toLower := by
  simpa using forall_ascii (p := fun c => decide (lowerChar c = c.toLower)) (by decide +kernel) hc

/-- The letters of the word for null are lower cases of ASCII letters only. -/
theorem toLower_of_lowerChar {c : Char} (h : lowerChar c ∈ ['n', 'u', 'l']) :
    c.toLower = lowerChar c := by
  have hletters : ['n', 'u', 'l'].all (fun letter => (97 ≤ letter.toNat && letter.toNat ≤ 122) &&
      (caseRuns.drop 1).all (fun run => run.1 ≠ 65 && Misses letter.toNat run)) = true := by
    decide +kernel
  have hletter := List.all_eq_true.mp hletters _ h
  rw [Bool.and_eq_true, Bool.and_eq_true, decide_eq_true_iff, decide_eq_true_iff] at hletter
  obtain ⟨hletter, hmisses⟩ := hletter
  exact (lowerChar_ascii (ascii_of_lowerChar hletter hmisses rfl)).symm

/-- A text that comes to letters of the word for null comes to them letter by letter. -/
theorem map_toLower_of_lowerAfter {t : Text} : ∀ {before : Text},
    (∀ d ∈ lowerAfter before t, d ∈ ['n', 'u', 'l']) →
      t.map Char.toLower = lowerAfter before t := by
  induction t with
  | nil => exact fun _ => rfl
  | cons c t ih =>
    intro before h
    rw [lowerAfter] at h ⊢
    by_cases hdotted : c = '\u0130'
    · subst hdotted
      exact absurd (h 'i' (List.mem_append_left _ List.mem_cons_self)) (by decide)
    · by_cases hsigma : c = 'Σ'
      · subst hsigma
        have hfirst := h _ (List.mem_append_left _ List.mem_cons_self)
        split at hfirst <;> exact absurd hfirst (by decide)
      · simp only [if_neg hdotted, if_neg hsigma, List.singleton_append] at h ⊢
        obtain ⟨hc, hrest⟩ := List.forall_mem_cons.mp h
        rw [List.map_cons, toLower_of_lowerChar hc, ih hrest]

theorem ascii_of_toLower {c : Char} (h : c.toLower.toNat < 128) : c.toNat < 128 := by
  by_cases hupper : c.isUpper = true
  · have hle : c.val ≤ 'Z'.val := (of_decide_eq_true hupper).2
    have : c.toNat ≤ 90 := UInt32.le_iff_toNat_le.mp hle
    omega
  · have hself : c.toLower = c := dif_neg fun hcapital => hupper (decide_eq_true hcapital)
    rwa [hself] at h

/-- A text that is the word for null, in any case of letters. -/
def SpellsNull (t : Text) : Prop :=
  t.map Char.toLower = "null".toList

instance (t : Text) : Decidable (SpellsNull t) :=
  inferInstanceAs (Decidable (_ = _))

/-- **The word for null** in any case of letters, and nothing else, reads as null. -/
theorem lower_eq_null_iff {t : Text} : lower t = "null".toList ↔ SpellsNull t := by
  unfold SpellsNull
  have hletters : ∀ d ∈ "null".toList, d ∈ ['n', 'u', 'l'] ∧ d.toNat < 128 :=
    forall_mem_of_all (by decide)
  constructor
  · intro h
    rw [← h]
    refine map_toLower_of_lowerAfter fun d hd => (hletters d ?_).1
    rw [← h]
    exact hd
  · intro h
    have hascii : ∀ c ∈ t, c.toNat < 128 := by
      intro c hc
      refine ascii_of_toLower (hletters _ ?_).2
      rw [← h]
      exact List.mem_map_of_mem hc
    rw [lower_ascii hascii, ← h]
    exact List.map_congr_left fun c hc => lowerChar_ascii (hascii c hc)

/-- A text that reads as null begins like the word. -/
theorem head_of_lower_null {c : Char} {rest : Text} (h : lower (c :: rest) = "null".toList) :
    c = 'n' ∨ c = 'N' := by
  have hfirst : c.toLower = 'n' := (List.cons.inj (lower_eq_null_iff.mp h)).1
  have hascii : c.toNat < 128 := ascii_of_toLower (by rw [hfirst]; decide)
  have hall :=
    forall_ascii (p := fun c => c.toLower ≠ 'n' || (c = 'n' || c = 'N')) (by decide +kernel)
    hascii
  simpa [hfirst] using hall

end ViewContract.Text
