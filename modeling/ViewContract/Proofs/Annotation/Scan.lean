/-
ViewContract.Proofs.Annotation.Scan — what the two scans for annotations find.

`scanFrom` is one recursion that both forms share, with the test for an occurrence as
a parameter:

  §1 one step — the three ways in which a scan goes over a character.
  §2 a whole scan — every annotation it yields was found by the test at its own start
     (`mem_scanFrom`), they follow one another without overlap (`scanFrom_ordered`), and
     every place at which the test finds one is covered (`scanFrom_covers`).

A scan reads the template through its rest alone, so the lemmas of §2 are stated for a
template cut in two: `u` has been read, `v` is the rest. That way the character before
and the offset are no free parameters but `u.getLast?` and `u.length`.
-/
import ViewContract.Annotation.Extract
import Mathlib.Data.List.Basic

namespace ViewContract.Annotation

open ViewContract.Text

variable {here? : Nat → Text → Option Annotation}

/-! ## 1. One step -/

/-- An annotation that is a piece of the text in which it is found, at the offset that
this text has. -/
def IsPieceOf (a : Annotation) (n : Nat) (t : Text) : Prop :=
  a.start = n ∧ a.stop = n + a.text.length ∧ a.text ≠ [] ∧ a.text <+: t

/-- A test whose findings are pieces of the text it looks at. -/
def FindsPieces (here? : Nat → Text → Option Annotation) : Prop :=
  ∀ n t a, here? n t = some a → a.IsPieceOf n t

theorem scanFrom_covered (before : Option Char) (n k : Nat) (c : Char) (rest : Text) :
    scanFrom here? before n (k + 1) (c :: rest) = scanFrom here? (some c) (n + 1) k rest :=
  rfl

theorem scanFrom_found {before : Option Char} {n : Nat} {c : Char} {rest : Text} {a : Annotation}
    (hb : mayFollow before = true) (ha : here? n (c :: rest) = some a) :
    scanFrom here? before n 0 (c :: rest)
      = a :: scanFrom here? (some c) (n + 1) (a.stop - a.start - 1) rest := by
  simp [scanFrom, hb, ha]

theorem scanFrom_skip {before : Option Char} {n : Nat} {c : Char} {rest : Text}
    (h : ¬ ∃ a, mayFollow before = true ∧ here? n (c :: rest) = some a) :
    scanFrom here? before n 0 (c :: rest) = scanFrom here? (some c) (n + 1) 0 rest := by
  by_cases hb : mayFollow before = true
  · cases ha : here? n (c :: rest) with
    | none => simp [scanFrom, hb, ha]
    | some a => exact absurd ⟨a, hb, ha⟩ h
  · simp [scanFrom, hb]

/-! ## 2. A whole scan -/

/-- An annotation that a test finds in a template, after a character that may precede
one. -/
def FoundIn (here? : Nat → Text → Option Annotation) (source : Text) (a : Annotation) : Prop :=
  ∃ u v, source = u ++ v ∧ mayFollow u.getLast? = true ∧ here? u.length v = some a

/-- What a scan yields was found by its test in the rest, behind what is covered. -/
theorem mem_scanFrom {a : Annotation} : ∀ (v u : Text) (covered : Nat),
    a ∈ scanFrom here? u.getLast? u.length covered v →
    ∃ w x, v = w ++ x ∧ covered ≤ w.length ∧ mayFollow (u ++ w).getLast? = true
      ∧ here? (u ++ w).length x = some a := by
  intro v
  induction v with
  | nil => intro u covered h; simp [scanFrom] at h
  | cons c rest ih =>
    intro u covered h
    -- one step further on, `u` has grown by `c`
    have hstep : ∀ k, a ∈ scanFrom here? (some c) (u.length + 1) k rest →
        ∃ w x, c :: rest = w ++ x ∧ k + 1 ≤ w.length ∧ mayFollow (u ++ w).getLast? = true
          ∧ here? (u ++ w).length x = some a := by
      intro k hk
      have hlast : (u ++ [c]).getLast? = some c := List.getLast?_concat
      have hlen : (u ++ [c]).length = u.length + 1 := by simp
      rw [← hlast, ← hlen] at hk
      obtain ⟨w, x, hv, hw, hb, ha⟩ := ih (u ++ [c]) k hk
      rw [List.append_assoc, List.singleton_append] at hb ha
      exact ⟨c :: w, x, by rw [hv, List.cons_append], by simpa using hw, hb, ha⟩
    cases covered with
    | succ k => exact hstep k h
    | zero =>
      by_cases hf : ∃ b, mayFollow u.getLast? = true ∧ here? u.length (c :: rest) = some b
      · obtain ⟨b, hb, hfound⟩ := hf
        rw [scanFrom_found hb hfound, List.mem_cons] at h
        rcases h with rfl | h
        · exact ⟨[], c :: rest, rfl, Nat.le_refl 0, by simpa using hb, by simpa using hfound⟩
        · obtain ⟨w, x, hv, _, hb', ha⟩ := hstep _ h
          exact ⟨w, x, hv, Nat.zero_le _, hb', ha⟩
      · rw [scanFrom_skip hf] at h
        obtain ⟨w, x, hv, _, hb', ha⟩ := hstep 0 h
        exact ⟨w, x, hv, Nat.zero_le _, hb', ha⟩

/-- What a scan of a whole template yields was found in it. -/
theorem foundIn_of_mem_scanFrom {source : Text} {a : Annotation}
    (h : a ∈ scanFrom here? none 0 0 source) : FoundIn here? source a := by
  obtain ⟨w, x, hv, _, hb, ha⟩ := mem_scanFrom source [] 0 h
  exact ⟨w, x, hv, hb, ha⟩

/-- What a scan yields begins behind what is covered. -/
theorem le_start_of_mem_scanFrom (hp : FindsPieces here?) {v u : Text} {covered : Nat}
    {a : Annotation} (h : a ∈ scanFrom here? u.getLast? u.length covered v) :
    u.length + covered ≤ a.start := by
  obtain ⟨w, x, _, hw, _, ha⟩ := mem_scanFrom v u covered h
  have hstart := (hp _ _ _ ha).1
  rw [List.length_append] at hstart
  omega

/-- The annotations of a scan follow one another without overlap. -/
theorem scanFrom_ordered (hp : FindsPieces here?) : ∀ (v u : Text) (covered : Nat),
    (scanFrom here? u.getLast? u.length covered v).Pairwise (fun a b => a.stop ≤ b.start) := by
  intro v
  induction v with
  | nil => intro u covered; simp [scanFrom]
  | cons c rest ih =>
    intro u covered
    have hlast : (u ++ [c]).getLast? = some c := List.getLast?_concat
    have hlen : (u ++ [c]).length = u.length + 1 := by simp
    cases covered with
    | succ k =>
      rw [scanFrom_covered, ← hlast, ← hlen]
      exact ih (u ++ [c]) k
    | zero =>
      by_cases hf : ∃ a, mayFollow u.getLast? = true ∧ here? u.length (c :: rest) = some a
      · obtain ⟨a, hb, ha⟩ := hf
        obtain ⟨hstart, hstop, hne, _⟩ := hp _ _ _ ha
        have hpos : 0 < a.text.length := List.length_pos_iff.mpr hne
        rw [scanFrom_found hb ha, ← hlast, ← hlen]
        refine List.pairwise_cons.mpr ⟨fun b hmem => ?_, ih (u ++ [c]) _⟩
        have := le_start_of_mem_scanFrom hp hmem
        omega
      · rw [scanFrom_skip hf, ← hlast, ← hlen]
        exact ih (u ++ [c]) 0

/-- A place of the rest at which the test finds an annotation is covered, by what was
covered before or by an annotation that the scan yields. -/
theorem scanFrom_covers (hp : FindsPieces here?) {a : Annotation} : ∀ (v u : Text) (covered : Nat)
    (w x : Text), v = w ++ x → mayFollow (u ++ w).getLast? = true →
    here? (u ++ w).length x = some a →
    w.length < covered ∨ ∃ b ∈ scanFrom here? u.getLast? u.length covered v,
      b.start ≤ (u ++ w).length ∧ (u ++ w).length < b.stop := by
  intro v
  induction v with
  | nil =>
    intro u covered w x hv hb ha
    have hx : x = [] := (List.append_eq_nil_iff.mp hv.symm).2
    obtain ⟨_, _, hne, hpre⟩ := hp _ _ _ ha
    exact absurd (List.prefix_nil.mp (hx ▸ hpre)) hne
  | cons c rest ih =>
    intro u covered w x hv hb ha
    have hlast : (u ++ [c]).getLast? = some c := List.getLast?_concat
    have hlen : (u ++ [c]).length = u.length + 1 := by simp
    -- the place is the first character of the rest, or it lies behind that
    cases w with
    | nil =>
      cases covered with
      | succ k => exact .inl (by simp)
      | zero =>
        rw [List.nil_append] at hv
        subst hv
        rw [List.append_nil] at hb ha ⊢
        obtain ⟨hstart, hstop, hne, _⟩ := hp _ _ _ ha
        have hpos : 0 < a.text.length := List.length_pos_iff.mpr hne
        rw [scanFrom_found hb ha]
        exact .inr ⟨a, List.mem_cons_self, by omega, by omega⟩
    | cons d w' =>
      rw [List.cons_append] at hv
      obtain ⟨rfl, rfl⟩ := List.cons.inj hv
      have hcat : u ++ c :: w' = u ++ [c] ++ w' := by simp
      rw [hcat] at hb ha ⊢
      have hstep := fun k => ih (u ++ [c]) k w' x rfl hb ha
      rw [hlast, hlen] at hstep
      cases covered with
      | succ k =>
        rw [scanFrom_covered, List.length_cons]
        exact (hstep k).imp_left Nat.succ_lt_succ
      | zero =>
        right
        by_cases hf : ∃ b, mayFollow u.getLast? = true ∧ here? u.length (c :: (w' ++ x)) = some b
        · obtain ⟨b, hb', hfound⟩ := hf
          obtain ⟨hstart, hstop, hne, _⟩ := hp _ _ _ hfound
          rw [scanFrom_found hb' hfound]
          rcases hstep (b.stop - b.start - 1) with hw | ⟨e, he, hspan⟩
          · exact ⟨b, List.mem_cons_self, by simp; omega, by simp; omega⟩
          · exact ⟨e, List.mem_cons_of_mem b he, hspan⟩
        · rw [scanFrom_skip hf]
          exact (hstep 0).resolve_left (Nat.not_lt_zero _)

/-- A scan yields nothing exactly if its test finds nothing anywhere. -/
theorem scanFrom_eq_nil_iff (hp : FindsPieces here?) (source : Text) :
    scanFrom here? none 0 0 source = [] ↔
      ∀ u v, source = u ++ v → mayFollow u.getLast? = true → here? u.length v = none := by
  constructor
  · intro hnil u v hs hb
    cases hfound : here? u.length v with
    | none => rfl
    | some a =>
      obtain h | ⟨b, hmem, _⟩ := scanFrom_covers hp source [] 0 u v hs hb hfound
      · exact absurd h (Nat.not_lt_zero _)
      · rw [show scanFrom here? ([] : Text).getLast? ([] : Text).length 0 source = [] from hnil]
          at hmem
        exact absurd hmem List.not_mem_nil
  · intro h
    refine List.eq_nil_iff_forall_not_mem.mpr fun a hmem => ?_
    obtain ⟨u, v, hs, hb, ha⟩ := foundIn_of_mem_scanFrom hmem
    rw [h u v hs hb] at ha
    exact nomatch ha

end ViewContract.Annotation
