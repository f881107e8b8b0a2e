/-
ViewContract.Proofs.Replacement — spans of a text replaced in any order.

A splice sorts the spans and goes over them with a cursor, and looks only at neighbours. Here it
is compared with a result that knows no order: every offset gives the texts of the spans that
start there, and its own character unless a span covers it (`replaced`). For spans that lie in
the text the splice is refused exactly if two of them cover an offset together, and otherwise
it is `replaced`, however the spans are listed (`splice_exact`).

  §1 spans that overlap.
  §2 the result, offset by offset.
  §3 spans that follow one another: the cursor meets each of them with its text.
  §4 spans in any order.
-/
import ViewContract.Splice
import Mathlib.Data.List.Basic
import Mathlib.Tactic.ByContra

namespace ViewContract

open Text

/-! ## 1. Spans that overlap -/

namespace Replacement

/-- A span of at least one character in a text of `length` characters. -/
structure Within (length : Nat) (r : Replacement) : Prop where
  nonneg : 0 ≤ r.start
  lt : r.start < r.stop
  le : r.stop ≤ length

/-- Whether a span covers an offset. -/
def covers (r : Replacement) (offset : Nat) : Bool :=
  r.start ≤ offset && offset < r.stop

/-- Two spans overlap: they cover an offset together. -/
def Meets (r s : Replacement) : Prop :=
  ∃ offset, r.covers offset = true ∧ s.covers offset = true

theorem covers_iff {r : Replacement} {offset : Nat} :
    r.covers offset = true ↔ r.start ≤ offset ∧ (offset : Int) < r.stop := by
  simp [covers]

theorem Meets.symm {r s : Replacement} : r.Meets s → s.Meets r := by
  rintro ⟨offset, hr, hs⟩
  exact ⟨offset, hs, hr⟩

/-- Of two spans in the order of their starts the second starts behind the first, or they
overlap. -/
theorem not_meets_iff {length : Nat} {r s : Replacement} (hs : s.Within length)
    (hle : r.start ≤ s.start) : ¬ r.Meets s ↔ r.stop ≤ s.start := by
  have hnonneg := hs.nonneg
  have hlt := hs.lt
  constructor
  · intro hnot
    by_contra hover
    -- the second span starts at an offset of the first
    refine hnot ⟨s.start.toNat, ?_, ?_⟩
    · rw [covers_iff]
      omega
    · rw [covers_iff]
      omega
  · rintro hstop ⟨offset, hr, hs⟩
    rw [covers_iff] at hr hs
    omega

theorem Meets.of_start_eq {length : Nat} {r s : Replacement} (hr : r.Within length)
    (hs : s.Within length) (h : r.start = s.start) : r.Meets s := by
  have hnonneg := hr.nonneg
  have hlt := hr.lt
  have hlt' := hs.lt
  refine ⟨r.start.toNat, ?_, ?_⟩
  · rw [covers_iff]
    omega
  · rw [covers_iff]
    omega

end Replacement

/-! ## 2. Offset by offset -/

/-- What the spans put at an offset: the texts of those that start there. -/
def startingText (rs : List Replacement) (offset : Nat) : Text :=
  rs.flatMap fun r => if r.start = (offset : Int) then r.text.getD [] else []

/-- What stands in the result for an offset: the texts of the spans that start there, and the
character itself unless a span covers it. -/
def replacedAt (rs : List Replacement) (offset : Nat) (c : Char) : Text :=
  startingText rs offset ++ if rs.any (·.covers offset) then [] else [c]

/-- A text from an offset on, with each of its characters as the spans have it. -/
def replacedFrom (rs : List Replacement) (offset : Nat) (t : Text) : Text :=
  (t.zipIdx offset).flatMap fun (c, i) => replacedAt rs i c

/-- A text with spans replaced, character by character. -/
def replaced (source : Text) (rs : List Replacement) : Text :=
  replacedFrom rs 0 source

@[simp] theorem replacedFrom_nil (rs : List Replacement) (offset : Nat) :
    replacedFrom rs offset [] = [] := rfl

@[simp] theorem replacedFrom_cons (rs : List Replacement) (offset : Nat) (c : Char) (t : Text) :
    replacedFrom rs offset (c :: t) = replacedAt rs offset c ++ replacedFrom rs (offset + 1) t := by
  simp [replacedFrom, List.zipIdx_cons]

theorem replacedFrom_append (rs : List Replacement) (s t : Text) : ∀ offset : Nat,
    replacedFrom rs offset (s ++ t)
      = replacedFrom rs offset s ++ replacedFrom rs (offset + s.length) t := by
  induction s with
  | nil => simp
  | cons c s ih =>
    intro offset
    have hnext : offset + 1 + s.length = offset + (s.length + 1) := by omega
    simp [ih, hnext]

/-- Before the first span a text stays as it is. -/
theorem replacedFrom_before {rs : List Replacement} {t : Text} : ∀ {offset : Nat},
    (∀ r ∈ rs, (offset + t.length : Int) ≤ r.start) → replacedFrom rs offset t = t := by
  induction t with
  | nil => simp
  | cons c t ih =>
    intro offset h
    simp only [List.length_cons] at h
    have hstarting : startingText rs offset = [] := by
      refine List.flatMap_eq_nil_iff.mpr fun r hr => ?_
      have := h r hr
      rw [if_neg (by omega)]
    have huncovered : rs.any (·.covers offset) = false := by
      refine List.any_eq_false.mpr fun r hr => ?_
      have := h r hr
      rw [Replacement.covers_iff]
      omega
    have hrest : replacedFrom rs (offset + 1) t = t := by
      refine ih fun r hr => ?_
      have := h r hr
      omega
    simp [replacedAt, hstarting, huncovered, hrest]

section first

variable {r : Replacement} {rest : List Replacement}

/-- Behind its start a span leaves nothing of the text it covers. -/
theorem replacedFrom_inside {t : Text} : ∀ {offset : Nat}, r.start < offset →
    (offset + t.length : Int) ≤ r.stop → (∀ s ∈ rest, r.stop ≤ s.start) →
    replacedFrom (r :: rest) offset t = [] := by
  induction t with
  | nil => simp
  | cons c t ih =>
    intro offset hstart hstop hrest
    simp only [List.length_cons] at hstop
    have hstarting : startingText (r :: rest) offset = [] := by
      refine List.flatMap_eq_nil_iff.mpr fun s hs => ?_
      rcases List.mem_cons.mp hs with rfl | hs
      · rw [if_neg (by omega)]
      · have := hrest s hs
        rw [if_neg (by omega)]
    have hcovered : r.covers offset = true := by
      rw [Replacement.covers_iff]
      omega
    have hnext : replacedFrom (r :: rest) (offset + 1) t = [] := ih (by omega) (by omega) hrest
    simp [replacedAt, hstarting, hcovered, hnext]

/-- The text that a span covers gives the text of the span. -/
theorem replacedFrom_span {t : Text} {offset : Nat} (hne : t ≠ []) (hstart : r.start = offset)
    (hstop : r.stop = offset + t.length) (hrest : ∀ s ∈ rest, r.stop ≤ s.start) :
    replacedFrom (r :: rest) offset t = r.text.getD [] := by
  obtain ⟨c, t, rfl⟩ := List.exists_cons_of_ne_nil hne
  simp only [List.length_cons] at hstop
  have hothers : startingText rest offset = [] := by
    refine List.flatMap_eq_nil_iff.mpr fun s hs => ?_
    have := hrest s hs
    rw [if_neg (by omega)]
  have hstarting : startingText (r :: rest) offset = r.text.getD [] := by
    rw [startingText, List.flatMap_cons, if_pos hstart]
    exact (congrArg _ hothers).trans (List.append_nil _)
  have hcovered : r.covers offset = true := by
    rw [Replacement.covers_iff]
    omega
  have hinside : replacedFrom (r :: rest) (offset + 1) t = [] :=
    replacedFrom_inside (by omega) (by omega) hrest
  simp [replacedAt, hstarting, hcovered, hinside]

/-- Behind a span only the others count. -/
theorem replacedFrom_after {t : Text} : ∀ {offset : Nat}, r.start < offset → r.stop ≤ offset →
    replacedFrom (r :: rest) offset t = replacedFrom rest offset t := by
  induction t with
  | nil => simp
  | cons c t ih =>
    intro offset hstart hstop
    have hstarting : startingText (r :: rest) offset = startingText rest offset := by
      rw [startingText, List.flatMap_cons, if_neg (by omega), List.nil_append, startingText]
    have huncovered : r.covers offset = false := by
      rw [← Bool.not_eq_true, Replacement.covers_iff]
      omega
    have hnext : replacedFrom (r :: rest) (offset + 1) t = replacedFrom rest (offset + 1) t :=
      ih (by omega) (by omega)
    simp [replacedAt, hstarting, huncovered, hnext]

end first

/-! ## 3. Spans that follow one another -/

/-- A text from one offset on is what lies before a later offset and the text from there on. -/
theorem drop_eq_append (source : Text) {first last : Nat} (h : first ≤ last) :
    source.drop first = (source.drop first).take (last - first) ++ source.drop last := by
  have hdrop : (source.drop first).drop (last - first) = source.drop last := by
    rw [List.drop_drop, Nat.add_sub_cancel' h]
  rw [← hdrop, List.take_append_drop]

/-- A splice at spans that follow one another from the cursor on. -/
theorem spliceFrom_eq_replacedFrom {source : Text} : ∀ {rs : List Replacement} {cursor : Nat},
    cursor ≤ source.length → (∀ r ∈ rs, r.Within source.length) →
    (∀ r ∈ rs, (cursor : Int) ≤ r.start) → rs.Pairwise (fun r s => r.stop ≤ s.start) →
    spliceFrom source cursor rs = .ok (replacedFrom rs cursor (source.drop cursor))
  | [], cursor, hcursor, _, _, _ => by
    have hkept : replacedFrom [] cursor (source.drop cursor) = source.drop cursor :=
      replacedFrom_before fun r hr => absurd hr List.not_mem_nil
    rw [spliceFrom, sliceFrom_ofNat source cursor hcursor, hkept]
  | r :: rest, cursor, hcursor, hwithin, hfrom, horder => by
    obtain ⟨hnonneg, hlt, hle⟩ := hwithin r List.mem_cons_self
    have hfirst := hfrom r List.mem_cons_self
    obtain ⟨hrest, hsorted⟩ := List.pairwise_cons.mp horder
    obtain ⟨start, hstart⟩ := Int.eq_ofNat_of_zero_le hnonneg
    obtain ⟨stop, hstop⟩ := Int.eq_ofNat_of_zero_le (show 0 ≤ r.stop by omega)
    have hcursor' : cursor ≤ start := by omega
    have hlt' : start < stop := by omega
    have hle' : stop ≤ source.length := by omega
    have hafter : spliceFrom source stop rest
        = .ok (replacedFrom rest stop (source.drop stop)) := by
      refine spliceFrom_eq_replacedFrom hle' (fun s hs => hwithin s (List.mem_cons_of_mem r hs))
        (fun s hs => ?_) hsorted
      rw [← hstop]
      exact hrest s hs
    -- the text from the cursor on: before the span, the span, behind it
    generalize hbefore : (source.drop cursor).take (start - cursor) = before
    generalize hspan : (source.drop start).take (stop - start) = span
    have hlength : before.length = start - cursor ∧ span.length = stop - start := by
      rw [← hbefore, ← hspan, List.length_take, List.length_take, List.length_drop,
        List.length_drop]
      omega
    have hcut : source.drop cursor = before ++ (span ++ source.drop stop) := by
      rw [← hbefore, ← hspan, ← drop_eq_append source (Nat.le_of_lt hlt'),
        ← drop_eq_append source hcursor']
    have hbefore' : replacedFrom (r :: rest) cursor before = before := by
      refine replacedFrom_before fun s hs => ?_
      rcases List.mem_cons.mp hs with rfl | hs
      · omega
      · have := hrest s hs
        omega
    have hspan' : replacedFrom (r :: rest) start span = r.text.getD [] := by
      refine replacedFrom_span (fun hnil => ?_) hstart (by omega) hrest
      rw [hnil, List.length_nil] at hlength
      omega
    have hbehind : replacedFrom (r :: rest) stop (source.drop stop)
        = replacedFrom rest stop (source.drop stop) :=
      replacedFrom_after (by omega) (by omega)
    have hnext : cursor + before.length = start ∧ start + span.length = stop := by omega
    have hslice : slice source cursor r.start = before := by
      rw [hstart, slice_ofNat source cursor start hcursor' (by omega), hbefore]
    rw [spliceFrom, if_neg (by omega), hslice, hstop, hafter, hcut, replacedFrom_append, hnext.1,
      replacedFrom_append, hnext.2, hbefore', hspan', hbehind, ← List.append_assoc]
    rfl

/-- Where a splice goes through, the spans follow one another from the cursor on. -/
theorem inOrder_of_spliceFrom {source : Text} {length : Nat} : ∀ {rs : List Replacement}
    {cursor : Int} {out : Text}, (∀ r ∈ rs, r.Within length) →
    spliceFrom source cursor rs = .ok out →
    (∀ r ∈ rs, cursor ≤ r.start) ∧ rs.Pairwise (fun r s => r.stop ≤ s.start)
  | [], _, _, _, _ => ⟨fun r hr => absurd hr List.not_mem_nil, .nil⟩
  | r :: rest, cursor, _, hwithin, h => by
    rw [spliceFrom] at h
    split at h
    · cases h
    · cases hafter : spliceFrom source r.stop rest with
      | error e =>
        rw [hafter] at h
        cases h
      | ok after =>
        obtain ⟨hfrom, hsorted⟩ :=
          inOrder_of_spliceFrom (fun s hs => hwithin s (List.mem_cons_of_mem r hs)) hafter
        have hlt := (hwithin r List.mem_cons_self).lt
        refine ⟨fun s hs => ?_, List.pairwise_cons.mpr ⟨hfrom, hsorted⟩⟩
        rcases List.mem_cons.mp hs with rfl | hs
        · omega
        · have := hfrom s hs
          omega

/-! ## 4. Spans in any order -/

/-- The texts at an offset do not depend on the order of the spans, as no two of them start
there. -/
theorem startingText_perm {rs rs' : List Replacement} (hperm : rs.Perm rs')
    (hstarts : rs.Pairwise fun r s => r.start ≠ s.start) (offset : Nat) :
    startingText rs offset = startingText rs' offset := by
  induction hperm with
  | nil => rfl
  | cons r _ ih =>
    have hrest := ih (List.pairwise_cons.mp hstarts).2
    simp only [startingText, List.flatMap_cons] at hrest ⊢
    rw [hrest]
  | swap r s rest =>
    have hne : s.start ≠ r.start := (List.pairwise_cons.mp hstarts).1 r List.mem_cons_self
    simp only [startingText, List.flatMap_cons]
    by_cases hr : r.start = offset
    · have hs : s.start ≠ offset := fun hs => hne (hs.trans hr.symm)
      simp [hs]
    · simp [hr]
  | trans hfirst _ ih ih' =>
    have hmiddle := hfirst.pairwise hstarts fun h => h.symm
    exact (ih hstarts).trans (ih' hmiddle)

theorem replaced_perm {rs rs' : List Replacement} (hperm : rs.Perm rs')
    (hstarts : rs.Pairwise fun r s => r.start ≠ s.start) (source : Text) :
    replaced source rs = replaced source rs' := by
  have hat : replacedAt rs = replacedAt rs' := by
    funext offset c
    rw [replacedAt, replacedAt, startingText_perm hperm hstarts, hperm.any_eq]
  rw [replaced, replaced, replacedFrom, replacedFrom, hat]

section spans

variable {source : Text} {rs : List Replacement} (hwithin : ∀ r ∈ rs, r.Within source.length)

include hwithin

/-- Spans do not overlap exactly if they follow one another once they are sorted. -/
theorem inOrder_sortOn_iff :
    (sortOn Replacement.start rs).Pairwise (fun r s => r.stop ≤ s.start) ↔
      rs.Pairwise fun r s => ¬ r.Meets s := by
  have hperm := sortOn_perm Replacement.start rs
  have hmem : ∀ {r}, r ∈ sortOn Replacement.start rs → r.Within source.length :=
    fun hr => hwithin _ (hperm.mem_iff.mp hr)
  have hsymm : ∀ {r s : Replacement}, ¬ r.Meets s → ¬ s.Meets r := fun h h' => h h'.symm
  rw [← hperm.pairwise_iff hsymm]
  constructor
  · intro horder
    refine horder.imp_of_mem fun {r s} hr hs hstop => ?_
    have hlt := (hmem hr).lt
    exact (Replacement.not_meets_iff (hmem hs) (by omega)).mpr hstop
  · intro hapart
    refine (hapart.and (sortOn_sorted Replacement.start rs)).imp_of_mem fun {r s} _ hs h => ?_
    exact (Replacement.not_meets_iff (hmem hs) h.2).mp h.1

/-- Spans that do not overlap start at different offsets. -/
theorem starts_ne (hapart : rs.Pairwise fun r s => ¬ r.Meets s) :
    rs.Pairwise fun r s => r.start ≠ s.start :=
  hapart.imp_of_mem fun hr hs hnot h => hnot (.of_start_eq (hwithin _ hr) (hwithin _ hs) h)

/-- Spans that do not overlap are replaced. -/
theorem splice_eq_replaced (hapart : rs.Pairwise fun r s => ¬ r.Meets s) :
    splice source rs = .ok (replaced source rs) := by
  have hperm := sortOn_perm Replacement.start rs
  have hmem : ∀ r ∈ sortOn Replacement.start rs, r.Within source.length :=
    fun r hr => hwithin r (hperm.mem_iff.mp hr)
  rw [splice, replaced_perm hperm.symm (starts_ne hwithin hapart)]
  exact spliceFrom_eq_replacedFrom (Nat.zero_le _) hmem (fun r hr => (hmem r hr).nonneg)
    ((inOrder_sortOn_iff hwithin).mpr hapart)

/-- Spans of which two overlap are refused. -/
theorem exists_overlap_of_splice (hmeets : ¬ rs.Pairwise fun r s => ¬ r.Meets s) :
    ∃ e, splice source rs = .error e := by
  cases hsplice : splice source rs with
  | error e => exact ⟨e, rfl⟩
  | ok out =>
    have hmem : ∀ r ∈ sortOn Replacement.start rs, r.Within source.length :=
      fun r hr => hwithin r ((sortOn_perm Replacement.start rs).mem_iff.mp hr)
    exact absurd ((inOrder_sortOn_iff hwithin).mp (inOrder_of_spliceFrom hmem hsplice).2) hmeets

/-- **A splice replaces exactly the given spans, in whatever order they are listed**: for spans of
at least one character that lie in the text, it is refused exactly if two of them overlap. If no
two do, every listing of them has one result, which is the text with each character kept that no
span covers, and with the text of each span in the place of the characters it covers. -/
theorem splice_exact :
    ((∃ e, splice source rs = .error e) ↔ ∃ r s, [r, s].Sublist rs ∧ r.Meets s) ∧
      ((∀ r s, [r, s].Sublist rs → ¬ r.Meets s) →
        ∀ rs' : List Replacement, rs'.Perm rs → splice source rs' = .ok (replaced source rs)) := by
  have hapart_iff : (rs.Pairwise fun r s => ¬ r.Meets s) ↔
      ∀ r s, [r, s].Sublist rs → ¬ r.Meets s := List.pairwise_iff_forall_sublist
  constructor
  · constructor
    · rintro ⟨e, he⟩
      by_contra hnone
      push Not at hnone
      rw [splice_eq_replaced hwithin (hapart_iff.mpr hnone)] at he
      cases he
    · rintro ⟨r, s, hrs, hmeets⟩
      exact exists_overlap_of_splice hwithin fun hapart => hapart_iff.mp hapart r s hrs hmeets
  · intro hnone rs' hperm
    have hapart := hapart_iff.mpr hnone
    have hsymm : ∀ {r s : Replacement}, ¬ r.Meets s → ¬ s.Meets r := fun h h' => h h'.symm
    have hapart' := hapart.perm hperm.symm hsymm
    have hwithin' : ∀ r ∈ rs', r.Within source.length :=
      fun r hr => hwithin r (hperm.mem_iff.mp hr)
    have hsame := replaced_perm hperm.symm (starts_ne hwithin hapart) source
    rw [splice_eq_replaced hwithin' hapart', hsame]

end spans

/-- Three spans with a longer text, a shorter one and none, in two orders; and two that overlap. -/
theorem splice_exact_of_three :
    let source := "0123456789".toList
    let first : Replacement := ⟨1, 2, some "one".toList⟩
    let second : Replacement := ⟨2, 5, some ['2']⟩
    let third : Replacement := ⟨7, 9, none⟩
    let late : Replacement := ⟨8, 10, some []⟩
    (∀ r ∈ [first, second, third, late], r.Within source.length) ∧
      splice source [third, first, second] = .ok "0one2569".toList ∧
      splice source [second, third, first] = .ok "0one2569".toList ∧
      ∃ e, splice source [late, first, third] = .error e := by
  intro source first second third late
  have hwithin : ∀ r ∈ [first, second, third, late], r.Within source.length := by
    intro r hr
    simp only [List.mem_cons, List.not_mem_nil, or_false] at hr
    rcases hr with rfl | rfl | rfl | rfl <;> exact ⟨by decide, by decide, by decide⟩
  have hthree : ∀ r ∈ [first, second, third], r.Within source.length :=
    fun r hr => hwithin r (List.mem_append_left [late] hr)
  have horder : [first, second, third].Pairwise
      fun r s => r.start ≤ s.start ∧ r.stop ≤ s.start := by decide
  have hapart : [first, second, third].Pairwise fun r s => ¬ r.Meets s :=
    horder.imp_of_mem fun _ hs h => (Replacement.not_meets_iff (hthree _ hs) h.1).mpr h.2
  have hresult : replaced source [first, second, third] = "0one2569".toList := by decide
  obtain ⟨_, hreplaced⟩ := splice_exact hthree
  have hany := hreplaced fun _ _ hrs => List.pairwise_iff_forall_sublist.mp hapart hrs
  rw [hresult] at hany
  refine ⟨hwithin, hany _ (by decide), hany _ (by decide), ?_⟩
  have hlate : ∀ r ∈ [late, first, third], r.Within source.length :=
    fun r hr => hwithin r ((by decide : [late, first, third] ⊆ [first, second, third, late]) hr)
  obtain ⟨hrefused, _⟩ := splice_exact hlate
  exact hrefused.mpr ⟨late, third, by decide, 8, rfl, rfl⟩

end ViewContract
