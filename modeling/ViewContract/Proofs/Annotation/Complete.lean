/-
ViewContract.Proofs.Annotation.Complete — complete parameter lists and what becomes of them.

A parameter list is complete where its opening word may stand and its parenthesis is closed on
the same line. The scan for parameter lists goes on behind each one it finds, and only afterwards
those that overlap a block are dropped. So a complete list is extracted, or overlaps what is
extracted, unless it begins inside one that was dropped (`complete_overlaps`): what the dropped
list hid from the scan is not looked at again.

  §1 complete parameter lists, and that the test for an occurrence finds them.
  §2 parameter lists that give way to a block. Each of them is noted.
  §3 what overlaps a complete parameter list.
-/
import ViewContract.Proofs.Annotation.Partition
import Mathlib.Data.List.Pairwise

namespace ViewContract.Annotation

open ViewContract.Text

/-! ## 1. Complete parameter lists -/

/-- A complete parameter list from one place of a template up to another: at a place where an
annotation may begin there are the opening word, spacing and a parenthesis, and then `k` characters
up to and with the parenthesis that balances it. -/
def CompleteAt (source : Text) (start stop : Nat) : Prop :=
  ∃ before blanks inner k, source = before ++ (opener ++ blanks ++ '(' :: inner) ∧
    mayFollow before.getLast? = true ∧ IsSpacing blanks ∧ closingLength? 1 none inner = some k ∧
    start = before.length ∧ stop = start + (opener ++ blanks ++ ['(']).length + k

theorem dropSpaces_spacing {blanks inner : Text} (h : IsSpacing blanks) :
    dropSpaces (blanks ++ '(' :: inner) = '(' :: inner := by
  unfold dropSpaces
  rw [List.dropWhile_append_of_pos]
  · simp
  · intro c hc
    simpa using h c hc

/-- The test for an occurrence finds what is complete. -/
theorem exists_expressionHere? (n : Nat) {blanks inner : Text} {k : Nat}
    (hblanks : IsSpacing blanks)
    (hk : closingLength? 1 none inner = some k) :
    ∃ a, expressionHere? n (opener ++ blanks ++ '(' :: inner) = some a ∧ a.start = n ∧
      a.stop = n + (opener ++ blanks ++ ['(']).length + k := by
  have hword : opener.isPrefixOf? (opener ++ (blanks ++ '(' :: inner)) =
      some (blanks ++ '(' :: inner) :=
    List.isPrefixOf?_eq_some_iff_append_eq.mpr rfl
  unfold expressionHere?
  simp [List.append_assoc, hword, dropSpaces_spacing hblanks, hk]
  omega

theorem CompleteAt.exists_found {source : Text} {start stop : Nat}
    (h : CompleteAt source start stop) :
    ∃ a, FoundIn expressionHere? source a ∧ a.start = start ∧ a.stop = stop := by
  obtain ⟨before, blanks, inner, k, rfl, hmay, hblanks, hk, rfl, rfl⟩ := h
  obtain ⟨a, ha, hstart, hstop⟩ := exists_expressionHere? before.length hblanks hk
  exact ⟨a, ⟨before, _, rfl, hmay, ha⟩, hstart, hstop⟩

/-- At one place there is at most one occurrence. -/
theorem FoundIn.eq_of_start_eq {here? : Nat → Text → Option Annotation} (hp : FindsPieces here?)
    {source : Text} {a b : Annotation} (ha : FoundIn here? source a) (hb : FoundIn here? source b)
    (h : a.start = b.start) : a = b := by
  obtain ⟨_, _, _, _, ha⟩ := ha.located hp
  obtain ⟨_, _, _, _, hb⟩ := hb.located hp
  rw [h, hb] at ha
  exact (Option.some.inj ha).symm

/-! ## 2. Giving way -/

/-- A parameter list that overlaps a block and gives way to it. -/
def GivesWay (source : Text) (e : Annotation) : Prop :=
  e ∈ expressions source ∧ ∃ b ∈ blocks source, e.overlaps b = true

/-- A parameter list that the scan finds is extracted or gives way. -/
theorem mem_freeExpressions_or_givesWay {source : Text} {e : Annotation}
    (h : e ∈ expressions source) : e ∈ freeExpressions source ∨ GivesWay source e := by
  by_cases hany : (blocks source).any e.overlaps = true
  · exact .inr ⟨h, List.any_eq_true.mp hany⟩
  · left
    simp [freeExpressions, h, hany]

/-- A parameter list that gives way is noted. -/
theorem GivesWay.noted {source : Text} {e : Annotation} (h : GivesWay source e) :
    Event.skippedNested e.start ∈ (extract source).log := by
  obtain ⟨hmem, hany⟩ := h
  simp only [extract, List.partition_eq_filter_filter]
  exact List.mem_map_of_mem (List.mem_filter.mpr ⟨hmem, List.any_eq_true.mpr hany⟩)

/-- It is apart from every parameter list that is extracted. -/
theorem GivesWay.apart {source : Text} {e a : Annotation} (h : GivesWay source e)
    (ha : a ∈ freeExpressions source) : Apart e a := by
  obtain ⟨hmem, b, hb, hoverlaps⟩ := h
  have hfree := List.mem_filter.mp ha
  have hne : e ≠ a := by
    intro heq
    have hnone := hfree.2
    rw [Bool.not_eq_true', List.any_eq_false] at hnone
    exact hnone b hb (heq ▸ hoverlaps)
  have hordered : (expressions source).Pairwise Apart :=
    (scanFrom_ordered expressionHere?_findsPieces source [] 0).imp .inl
  have : Std.Symm Apart := ⟨fun _ _ h => h.symm⟩
  exact hordered.forall hmem hfree.1 hne

/-! ## 3. What overlaps a complete parameter list -/

/-- Some annotation has a character in common with a span. -/
def Overlapped (annotations : List Annotation) (start stop : Nat) : Prop :=
  ∃ a ∈ annotations, start < a.stop ∧ a.start < stop

/-- The scan finds a parameter list at a complete one, or one that begins before it and covers its
first character. -/
theorem CompleteAt.exists_covering {source : Text} {start stop : Nat}
    (h : CompleteAt source start stop) : start < stop ∧
      ∃ e ∈ expressions source, e.start ≤ start ∧ start < e.stop ∧
        (e.start = start → e.stop = stop) := by
  obtain ⟨a, hfound, rfl, rfl⟩ := h.exists_found
  have hlt := (hfound.located expressionHere?_findsPieces).1
  obtain ⟨before, rest, hsource, hmay, hhere⟩ := hfound
  have hstart : a.start = before.length := (expressionHere?_findsPieces _ _ _ hhere).1
  obtain hnone | ⟨e, he, hle, hcovers⟩ :=
    scanFrom_covers expressionHere?_findsPieces source [] 0 before rest hsource hmay hhere
  · exact absurd hnone (Nat.not_lt_zero _)
  · rw [List.nil_append, ← hstart] at hle hcovers
    refine ⟨hlt, e, he, hle, hcovers, ?_⟩
    intro hsame
    rw [FoundIn.eq_of_start_eq expressionHere?_findsPieces (foundIn_of_mem_scanFrom he)
      ⟨before, rest, hsource, hmay, hhere⟩ hsame]

/-- **What becomes of a complete parameter list**: it overlaps an annotation that is extracted,
or it begins inside a parameter list that gave way to a block, which is noted. Inside such a list
only blocks are extracted, so there a complete one that overlaps no block is lost. -/
theorem complete_overlaps {source : Text} {start stop : Nat} (h : CompleteAt source start stop) :
    (Overlapped (extract source).value start stop ∨
      ∃ e, GivesWay source e ∧ Event.skippedNested e.start ∈ (extract source).log ∧
        e.start < start ∧ start < e.stop) ∧
    ∀ e, GivesWay source e → e.start < start → stop ≤ e.stop →
      (Overlapped (extract source).value start stop ↔ Overlapped (blocks source) start stop) := by
  obtain ⟨hlt, e, he, hle, hcovers, hsame⟩ := h.exists_covering
  constructor
  · rcases mem_freeExpressions_or_givesWay he with hfree | hgives
    · exact .inl ⟨e, mem_extract.mpr (.inr hfree), by omega⟩
    · rcases Nat.lt_or_eq_of_le hle with hbefore | heq
      · exact .inr ⟨e, hgives, hgives.noted, hbefore, hcovers⟩
      · -- the list itself gives way, and so overlaps a block
        obtain ⟨_, b, hb, hoverlaps⟩ := hgives
        have hstop := hsame heq
        simp only [overlaps, Bool.and_eq_true, decide_eq_true_eq] at hoverlaps
        exact .inl ⟨b, mem_extract.mpr (.inl hb), by omega⟩
  · intro e hgives hstart hstop
    constructor
    · rintro ⟨a, ha, hoverlaps⟩
      rcases mem_extract.mp ha with hblock | hfree
      · exact ⟨a, hblock, hoverlaps⟩
      · -- what is extracted besides is apart from the list around
        have hapart := hgives.apart hfree
        simp only [Apart] at hapart
        omega
    · rintro ⟨b, hb, hoverlaps⟩
      exact ⟨b, mem_extract.mpr (.inl hb), hoverlaps⟩

/-- A parameter list in a parameter list, and a block that begins in the outer one. -/
def nestedTwice : Text := "@expects(@expects() @expects ) @endexpects".toList

/-- The outer parameter list. -/
def outerList : Annotation where
  form := .expression
  body := "@expects() @expects ".toList
  start := 0
  stop := 30
  text := "@expects(@expects() @expects )".toList

theorem blocks_nestedTwice : blocks nestedTwice
    = [{ form := .block, body := " ) ".toList, start := 20, stop := 42,
         text := "@expects ) @endexpects".toList }] := by
  decide +kernel

theorem not_overlapped_nestedTwice : ¬ Overlapped (blocks nestedTwice) 9 19 := by
  rintro ⟨b, hb, hoverlaps⟩
  rw [blocks_nestedTwice] at hb
  obtain rfl := List.mem_singleton.mp hb
  exact absurd hoverlaps.2 (by decide)

theorem completeAt_nestedTwice : CompleteAt nestedTwice 9 19 :=
  ⟨"@expects(".toList, [], ") @expects ) @endexpects".toList, 1, by decide, by decide, nofun,
    by decide, rfl, by decide⟩

theorem givesWay_outerList : GivesWay nestedTwice outerList :=
  ⟨by decide +kernel, _, by rw [blocks_nestedTwice]; exact List.mem_singleton_self _, by decide⟩

/-- The inner parameter list is lost: the outer one hid it from the scan and then gave way. -/
theorem complete_overlaps_of_nestedTwice : CompleteAt nestedTwice 9 19 ∧
    GivesWay nestedTwice outerList ∧ ¬ Overlapped (extract nestedTwice).value 9 19 := by
  refine ⟨completeAt_nestedTwice, givesWay_outerList, ?_⟩
  rw [(complete_overlaps completeAt_nestedTwice).2 outerList givesWay_outerList (by decide)
    (by decide)]
  exact not_overlapped_nestedTwice

/-- A complete parameter list can lie outside of all that is extracted. -/
theorem not_forall_complete_overlaps : ¬ ∀ (source : Text) (start stop : Nat),
    CompleteAt source start stop → Overlapped (extract source).value start stop := by
  intro h
  have hextract : (extract nestedTwice).value = blocks nestedTwice := by decide +kernel
  have hinner := h nestedTwice 9 19 completeAt_nestedTwice
  rw [hextract] at hinner
  exact not_overlapped_nestedTwice hinner

end ViewContract.Annotation
