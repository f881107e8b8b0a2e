/-
ViewContract.Proofs.Annotation.Outside — the template outside its annotations.

`outside l n t` is the text `t`, which begins at offset `n`, without the characters that a
list of annotations covers. It is what a weave without codes comes to
(`weave_removals`), and unlike the weave it can be cut anywhere (`outside_append`).

  §1 characters that are covered, and texts without them.
  §2 annotations that are laid out in a template, none over another (`Laid`).
  §3 seams. Where an annotation has been taken out, the character before is one that may
     precede an annotation. So letters and at signs that stand side by side afterwards
     stood side by side before (`glued_of_outside`), a text without at signs is kept
     (`outside_append_of_no_at`), and what ends at a seam may precede an annotation
     (`mayFollow_outside_stop`).
-/
import ViewContract.Proofs.Compile

namespace ViewContract.Annotation

open ViewContract.Text

/-! ## 1. Covered characters -/

/-- Whether one of some annotations covers the character at an offset. -/
def covers (l : List Annotation) (n : Nat) : Bool :=
  l.any fun a => a.start ≤ n && n < a.stop

/-- A text that begins at offset `n` without its covered characters. -/
def outside (l : List Annotation) (n : Nat) : Text → Text
  | [] => []
  | c :: rest => if covers l n then outside l (n + 1) rest else c :: outside l (n + 1) rest

theorem covers_iff {l : List Annotation} {n : Nat} :
    covers l n = true ↔ ∃ a ∈ l, a.start ≤ n ∧ n < a.stop := by
  simp [covers]

theorem outside_cons_of_covers {l : List Annotation} {n : Nat} (h : covers l n = true) (c : Char)
    (t : Text) : outside l n (c :: t) = outside l (n + 1) t := by
  rw [outside, if_pos h]

theorem outside_cons_of_not_covers {l : List Annotation} {n : Nat} (h : covers l n = false)
    (c : Char) (t : Text) : outside l n (c :: t) = c :: outside l (n + 1) t := by
  rw [outside, if_neg (by simp [h])]

theorem outside_append (l : List Annotation) (x y : Text) : ∀ n : Nat,
    outside l n (x ++ y) = outside l n x ++ outside l (n + x.length) y := by
  induction x with
  | nil => intro n; simp [outside]
  | cons c x ih =>
    intro n
    have hlen : n + (c :: x).length = n + 1 + x.length := by
      simp only [List.length_cons]
      omega
    rw [List.cons_append, hlen]
    cases h : covers l n with
    | true => rw [outside_cons_of_covers h, outside_cons_of_covers h, ih]
    | false =>
      rw [outside_cons_of_not_covers h, outside_cons_of_not_covers h, ih, List.cons_append]

/-- Which annotations cover a text is all that counts. -/
theorem outside_congr {l l' : List Annotation} : ∀ {t : Text} {n : Nat},
    (∀ i < t.length, covers l (n + i) = covers l' (n + i)) → outside l n t = outside l' n t
  | [], _, _ => rfl
  | c :: t, n, h => by
    have hrest : outside l (n + 1) t = outside l' (n + 1) t := by
      refine outside_congr fun i hi => ?_
      have := h (i + 1) (Nat.succ_lt_succ hi)
      rwa [show n + (i + 1) = n + 1 + i by omega] at this
    rw [outside, outside, hrest, show covers l n = covers l' n from h 0 (Nat.zero_lt_succ _)]

theorem outside_nil (n : Nat) : ∀ t : Text, outside [] n t = t
  | [] => rfl
  | c :: t => by rw [outside_cons_of_not_covers rfl, outside_nil (n + 1) t]

/-- A text that is covered as a whole vanishes. -/
theorem outside_eq_nil {l : List Annotation} : ∀ {t : Text} {n : Nat},
    (∀ i < t.length, covers l (n + i) = true) → outside l n t = []
  | [], _, _ => rfl
  | c :: t, n, h => by
    have hhead : covers l n = true := h 0 (Nat.zero_lt_succ _)
    rw [outside_cons_of_covers hhead]
    refine outside_eq_nil fun i hi => ?_
    have := h (i + 1) (Nat.succ_lt_succ hi)
    rwa [show n + (i + 1) = n + 1 + i by omega] at this

theorem outside_length_le (l : List Annotation) : ∀ (n : Nat) (t : Text),
    (outside l n t).length ≤ t.length
  | _, [] => Nat.le_refl 0
  | n, c :: t => by
    have := outside_length_le l (n + 1) t
    cases h : covers l n with
    | true => rw [outside_cons_of_covers h, List.length_cons]; omega
    | false => rw [outside_cons_of_not_covers h, List.length_cons, List.length_cons]; omega

/-- A cut of what is outside is a cut of the text, in front of a character that is not
covered. -/
theorem exists_cut_of_outside {l : List Annotation} {u v : Text} (hv : v ≠ []) :
    ∀ {t : Text} {n : Nat}, outside l n t = u ++ v →
    ∃ x y, t = x ++ y ∧ covers l (n + x.length) = false ∧ u = outside l n x ∧
      v = outside l (n + x.length) y := by
  intro t
  induction t generalizing u with
  | nil => intro n h; exact absurd (List.append_eq_nil_iff.mp h.symm).2 hv
  | cons c t ih =>
    intro n h
    have hlen : ∀ x : Text, n + (c :: x).length = n + 1 + x.length := fun x => by
      simp only [List.length_cons]
      omega
    cases hc : covers l n with
    | true =>
      rw [outside_cons_of_covers hc] at h
      obtain ⟨x, y, rfl, hcov, hu, hv'⟩ := ih h
      exact ⟨c :: x, y, rfl, by rw [hlen]; exact hcov, by rw [outside_cons_of_covers hc]; exact hu,
        by rw [hlen]; exact hv'⟩
    | false =>
      cases u with
      | nil =>
        refine ⟨[], c :: t, rfl, hc, rfl, ?_⟩
        rw [List.nil_append] at h
        exact h.symm
      | cons d u =>
        rw [outside_cons_of_not_covers hc, List.cons_append] at h
        obtain ⟨rfl, htail⟩ := List.cons.inj h
        obtain ⟨x, y, rfl, hcov, rfl, hv'⟩ := ih htail
        exact ⟨c :: x, y, rfl, by rw [hlen]; exact hcov, by rw [outside_cons_of_not_covers hc],
          by rw [hlen]; exact hv'⟩

/-- A weave without codes is what lies outside. -/
theorem weave_removals (source : Text) : ∀ (l : List Annotation) (cursor : Nat),
    Consecutive source.length cursor l →
    weave source cursor (l.map fun a => (a, none)) = outside l cursor (source.drop cursor)
  | [], cursor, _ => by rw [List.map_nil, weave, outside_nil]
  | a :: rest, cursor, ⟨h1, h2, h3⟩ => by
    have hle := h3.cursor_le
    obtain ⟨hfrom, _⟩ := h3.sorted
    -- the piece before the span, the span, and what follows
    have hcut : source.drop cursor = (source.drop cursor).take (a.start - cursor) ++
        ((source.drop a.start).take (a.stop - a.start) ++ source.drop a.stop) := by
      have hstart : source.drop a.start
          = (source.drop a.start).take (a.stop - a.start) ++ source.drop a.stop := by
        rw [show a.stop = a.start + (a.stop - a.start) by omega, ← List.drop_drop,
          Nat.add_sub_cancel_left, List.take_append_drop]
      rw [← hstart, show a.start = cursor + (a.start - cursor) by omega, ← List.drop_drop,
        Nat.add_sub_cancel_left, List.take_append_drop]
    have hlen1 : ((source.drop cursor).take (a.start - cursor)).length = a.start - cursor := by
      rw [List.length_take, List.length_drop]
      omega
    have hlen2 : ((source.drop a.start).take (a.stop - a.start)).length = a.stop - a.start := by
      rw [List.length_take, List.length_drop]
      omega
    have hbefore : outside (a :: rest) cursor ((source.drop cursor).take (a.start - cursor))
        = (source.drop cursor).take (a.start - cursor) := by
      refine (outside_congr fun i hi => ?_).trans (outside_nil cursor _)
      rw [hlen1] at hi
      refine Bool.eq_false_iff.mpr fun hcov => ?_
      obtain ⟨b, hb, hb1, hb2⟩ := covers_iff.mp hcov
      rcases List.mem_cons.mp hb with rfl | hb
      · omega
      · have := hfrom b hb
        omega
    have hspan :
        outside (a :: rest) a.start ((source.drop a.start).take (a.stop - a.start)) = [] := by
      refine outside_eq_nil fun i hi => covers_iff.mpr ⟨a, List.mem_cons_self, ?_⟩
      rw [hlen2] at hi
      omega
    have hafter : outside (a :: rest) a.stop (source.drop a.stop)
        = outside rest a.stop (source.drop a.stop) := by
      refine outside_congr fun i _ => ?_
      have hno : (decide (a.start ≤ a.stop + i) && decide (a.stop + i < a.stop)) = false := by
        simp
      rw [covers, List.any_cons, hno, Bool.false_or]
      rfl
    rw [List.map_cons, weave, weave_removals source rest a.stop h3, hcut, outside_append, hbefore,
      hlen1, outside_append, hlen2, show cursor + (a.start - cursor) = a.start by omega, hspan,
      show a.start + (a.stop - a.start) = a.stop by omega, hafter, ← hcut]
    simp

/-! ## 2. Annotations that are laid out -/

/-- Annotations that lie in a template as their forms demand, none over another. -/
structure Laid (source : Text) (l : List Annotation) : Prop where
  placed : ∀ a ∈ l, a.WellPlaced source
  apart : ∀ a ∈ l, ∀ b ∈ l, a = b ∨ Apart a b

theorem laid_extract (source : Text) : Laid source (extract source).value := by
  refine ⟨fun a => wellPlaced_of_mem_extract, fun a ha b hb => ?_⟩
  exact List.Pairwise.forall_of_forall_of_flip (R := fun a b => a = b ∨ Apart a b)
    (fun _ _ => .inl rfl) ((extract_ordered source).imp fun h => .inr (.inl h.2))
    ((extract_ordered source).imp fun h => .inr (.inr h.2)) ha hb

/-- An annotation begins with the opening word. -/
theorem WellPlaced.text_eq_opener_append {source : Text} {a : Annotation}
    (h : a.WellPlaced source) : ∃ rest, a.text = opener ++ rest := by
  have hshape := h.shape
  cases hform : a.form with
  | expression =>
    rw [hform] at hshape
    obtain ⟨blanks, _, htext⟩ := hshape
    exact ⟨blanks ++ '(' :: a.body ++ [')'], by rw [htext]; simp⟩
  | block =>
    rw [hform] at hshape
    exact ⟨a.body ++ blockCloser, by rw [hshape.1, List.append_assoc]⟩

section cuts

variable {x y : Text} {a : Annotation}

/-- What stands in front of an annotation may precede one. -/
theorem WellPlaced.mayFollow_before (h : a.WellPlaced (x ++ y)) (ha : a.start = x.length) :
    mayFollow x.getLast? = true := by
  cases hlast : x.getLast? with
  | none => rfl
  | some c =>
    have := h.before_eq c (by rw [ha, List.take_left]; exact hlast)
    simpa [mayFollow] using this

/-- An annotation begins with an at sign. -/
theorem WellPlaced.eq_at_cons (h : a.WellPlaced (x ++ y)) (ha : a.start = x.length) :
    ∃ z, y = '@' :: z := by
  obtain ⟨rest, hrest⟩ := h.text_eq_opener_append
  have htext := h.text_eq
  rw [ha, List.drop_left, hrest] at htext
  cases y with
  | nil => rw [List.take_nil] at htext; exact nomatch htext
  | cons c z =>
    have hpos : a.stop - x.length = (a.stop - x.length - 1) + 1 := by
      have := h.start_lt_stop
      omega
    rw [hpos, List.take_succ_cons] at htext
    obtain ⟨rfl, _⟩ := List.cons.inj htext
    exact ⟨z, rfl⟩

/-- A parameter list ends with a parenthesis. -/
theorem WellPlaced.getLast_eq (h : a.WellPlaced (x ++ y)) (hform : a.form = .expression)
    (ha : a.stop = x.length) : x.getLast? = some ')' := by
  have hshape := h.shape
  rw [hform] at hshape
  obtain ⟨blanks, _, hshape⟩ := hshape
  have hlt := h.start_lt_stop
  have htext : a.text = x.drop a.start := by
    rw [h.text_eq, List.drop_append_of_le_length (by omega), ha]
    exact List.take_left' (by rw [List.length_drop])
  have hlast : a.text.getLast? = some ')' := by
    rw [hshape]
    exact List.getLast?_concat
  rw [← hlast, htext, List.getLast?_drop, if_neg (by omega)]

end cuts

/-! ## 3. Seams -/

/-- A covered character behind one that is not is the first of an annotation. -/
theorem start_of_covers_succ {l : List Annotation} {n : Nat} (hn : covers l n = false)
    (hcov : covers l (n + 1) = true) : ∃ a ∈ l, a.start = n + 1 := by
  obtain ⟨a, ha, hle, hlt⟩ := covers_iff.mp hcov
  refine ⟨a, ha, Nat.le_antisymm hle (Nat.lt_of_not_le fun hstart => ?_)⟩
  have : covers l n = true := covers_iff.mpr ⟨a, ha, hstart, by omega⟩
  rw [hn] at this
  exact nomatch this

/-- A covered character in front of one that is not is the last of an annotation. -/
theorem stop_of_covers {l : List Annotation} {n : Nat} (hcov : covers l n = true)
    (hn : covers l (n + 1) = false) : ∃ a ∈ l, a.stop = n + 1 := by
  obtain ⟨a, ha, hle, hlt⟩ := covers_iff.mp hcov
  refine ⟨a, ha, Nat.le_antisymm (Nat.le_of_not_lt fun hstop => ?_) hlt⟩
  have : covers l (n + 1) = true := covers_iff.mpr ⟨a, ha, by omega, hstop⟩
  rw [hn] at this
  exact nomatch this

section seams

variable {l : List Annotation} {source : Text}

/-- Characters after which no annotation may begin stand side by side in the template if
they do so outside the annotations. -/
theorem glued_of_outside (hl : Laid source l) {w v : Text} : ∀ {x y : Text},
    source = x ++ y → covers l x.length = false → w ≠ [] →
    (∀ c ∈ w, mayFollow (some c) = false) → outside l x.length y = w ++ v →
    ∃ z, y = w ++ z ∧ v = outside l (x.length + w.length) z ∧
      covers l (x.length + w.length - 1) = false := by
  induction w with
  | nil => intro x y _ _ hne; exact absurd rfl hne
  | cons c w ih =>
    intro x y hsource hcov _ hw hout
    cases y with
    | nil => exact nomatch hout
    | cons d y =>
      rw [outside_cons_of_not_covers hcov, List.cons_append] at hout
      obtain ⟨rfl, htail⟩ := List.cons.inj hout
      cases w with
      | nil => exact ⟨y, rfl, htail.symm, hcov⟩
      | cons e w =>
        -- an annotation that began here would have to follow `d`
        have hnext : covers l (x.length + 1) = false := by
          refine Bool.eq_false_iff.mpr fun hcov' => ?_
          obtain ⟨a, ha, hstart⟩ := start_of_covers_succ hcov hcov'
          have hplaced : a.WellPlaced ((x ++ [d]) ++ y) := by
            rw [List.append_assoc, List.singleton_append, ← hsource]
            exact hl.placed a ha
          have hmay := hplaced.mayFollow_before (by rw [hstart, List.length_append]; rfl)
          rw [List.getLast?_concat, hw d List.mem_cons_self] at hmay
          exact nomatch hmay
        have hlen : (x ++ [d]).length = x.length + 1 := by simp
        obtain ⟨z, hz, hv, hlast⟩ := ih (x := x ++ [d]) (y := y) (by rw [hsource]; simp)
          (by rw [hlen]; exact hnext) (List.cons_ne_nil e w)
          (fun c hc => hw c (List.mem_cons_of_mem d hc)) (by rw [hlen]; exact htail)
        rw [hlen] at hv hlast
        refine ⟨z, by rw [hz]; rfl, ?_, ?_⟩
        · rw [hv, List.length_cons (a := d)]
          congr 1
          omega
        · rw [← hlast]
          congr 1
          simp only [List.length_cons]
          omega

/-- A text without at signs is kept, if no annotation reaches into it. -/
theorem outside_append_of_no_at (hl : Laid source l) {w : Text} : ∀ {x z : Text},
    source = x ++ (w ++ z) → (∀ a ∈ l, a.start < x.length → a.stop ≤ x.length) →
    (∀ c ∈ w, c ≠ '@') →
    outside l x.length (w ++ z) = w ++ outside l (x.length + w.length) z := by
  induction w with
  | nil => intro x z _ _ _; rfl
  | cons c w ih =>
    intro x z hsource hin hw
    have hcov : covers l x.length = false := by
      refine Bool.eq_false_iff.mpr fun hcov => ?_
      obtain ⟨a, ha, hle, hlt⟩ := covers_iff.mp hcov
      have hstart : a.start = x.length :=
        Nat.le_antisymm hle (Nat.le_of_not_lt fun h => Nat.not_lt_of_le (hin a ha h) hlt)
      obtain ⟨rest, hrest⟩ := (hsource ▸ hl.placed a ha).eq_at_cons hstart
      exact hw c List.mem_cons_self (List.cons.inj hrest).1
    have hlen : (x ++ [c]).length = x.length + 1 := by simp
    have hrest := ih (x := x ++ [c]) (z := z) (by rw [hsource]; simp)
      (fun a ha hlt => by
        rw [hlen] at hlt ⊢
        by_cases hstart : a.start < x.length
        · have := hin a ha hstart
          omega
        · have := (hl.placed a ha).start_lt_stop
          have hyes : covers l x.length = true := covers_iff.mpr ⟨a, ha, by omega, by omega⟩
          rw [hcov] at hyes
          exact nomatch hyes)
      (fun d hd => hw d (List.mem_cons_of_mem c hd))
    rw [hlen] at hrest
    rw [List.cons_append, outside_cons_of_not_covers hcov, hrest, List.cons_append,
      List.length_cons]
    congr 3
    omega

/-- What is outside in front of an annotation may precede one: either the character before
the annotation is outside, or another annotation ends there. -/
theorem mayFollow_outside_start (hl : Laid source l) : ∀ (n : Nat) {a : Annotation}, a ∈ l →
    a.start = n → mayFollow (outside l 0 (source.take a.start)).getLast? = true := by
  intro n
  induction n using Nat.strongRecOn with
  | ind n ih =>
    intro a ha hn
    have hplaced := hl.placed a ha
    have hle : a.start ≤ source.length := by
      have h1 := hplaced.start_lt_stop
      have h2 := hplaced.stop_le_length
      omega
    rcases List.eq_nil_or_concat (source.take a.start) with hnil | ⟨w, c, hw⟩
    · rw [hnil]
      rfl
    · have hlen : w.length + 1 = a.start := by
        have := congrArg List.length hw
        rw [List.length_take, Nat.min_eq_left hle, List.length_concat] at this
        exact this.symm
      rw [hw, List.concat_eq_append, outside_append, Nat.zero_add]
      cases hcov : covers l w.length with
      | false =>
        rw [outside_cons_of_not_covers hcov]
        have := hplaced.before_eq c (by rw [hw, List.concat_eq_append, List.getLast?_concat])
        simp [outside, mayFollow, this]
      | true =>
        -- the annotation that covers `c` ends here, since two of them are apart
        obtain ⟨b, hb, hble, hblt⟩ := covers_iff.mp hcov
        have hlt := hplaced.start_lt_stop
        have hstop : b.start < a.start ∧ b.stop = a.start := by
          rcases hl.apart a ha b hb with rfl | h | h
          · omega
          · omega
          · omega
        rw [outside_cons_of_covers hcov, outside, List.append_nil]
        have hcut : w = source.take b.start ++ (w.drop b.start) := by
          have : source.take b.start = w.take b.start := by
            rw [show b.start = min b.start a.start by omega, ← List.take_take, hw,
              List.concat_eq_append, show min b.start a.start = b.start by omega,
              List.take_append_of_le_length (by omega)]
          rw [this, List.take_append_drop]
        have hnone : outside l b.start (w.drop b.start) = [] := by
          refine outside_eq_nil fun i hi => covers_iff.mpr ⟨b, hb, by omega, ?_⟩
          rw [List.length_drop] at hi
          omega
        rw [hcut, outside_append, Nat.zero_add, List.length_take, Nat.min_eq_left (by omega), hnone,
          List.append_nil]
        exact ih b.start (by omega) hb rfl

/-- What is outside up to the end of an annotation may precede one. -/
theorem mayFollow_outside_stop (hl : Laid source l) {a : Annotation} (ha : a ∈ l) :
    mayFollow (outside l 0 (source.take a.stop)).getLast? = true := by
  have hlt := (hl.placed a ha).start_lt_stop
  have hle := (hl.placed a ha).stop_le_length
  have hcut : source.take a.stop =
      source.take a.start ++ (source.drop a.start).take (a.stop - a.start) := by
    rw [← List.take_add, Nat.add_sub_cancel' (Nat.le_of_lt hlt)]
  have hnone : outside l a.start ((source.drop a.start).take (a.stop - a.start)) = [] := by
    refine outside_eq_nil fun i hi => covers_iff.mpr ⟨a, ha, by omega, ?_⟩
    rw [List.length_take] at hi
    omega
  rw [hcut, outside_append, Nat.zero_add, List.length_take, Nat.min_eq_left (by omega), hnone,
    List.append_nil]
  exact mayFollow_outside_start hl a.start ha rfl

end seams

end ViewContract.Annotation
