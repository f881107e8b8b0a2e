/-
ViewContract.Proofs.Annotation.Partition — the annotations of a template partition it.

Two scans look for the two forms on their own, a filter drops the parameter lists that
overlap a block, and a sort merges what is left. From all three together:

  §1 each annotation lies in the template as its form demands (`WellPlaced`).
  §2 any two of them are apart. Within one form this is the order of its scan, between
     the forms it is what the filter leaves.
  §3 so the sorted list ascends strictly (`extract_ordered`), and its spans are what a
     splice asks for (`extract_consecutive`).

Being apart is symmetric and therefore survives the sort; the sort then tells which of
the two comes first, since no span is empty.
-/
import ViewContract.Proofs.Annotation.Occurrence
import ViewContract.Proofs.Splice

namespace ViewContract.Annotation

open ViewContract.Text

/-! ## 1. Where an annotation lies -/

/-- An annotation that lies in a template as its form demands. -/
structure WellPlaced (source : Text) (a : Annotation) : Prop where
  start_lt_stop : a.start < a.stop
  stop_le_length : a.stop ≤ source.length
  text_eq : a.text = (source.drop a.start).take (a.stop - a.start)
  /-- Neither a word character nor an at sign stands before it. -/
  before_eq : ∀ c, (source.take a.start).getLast? = some c → isWord c = false ∧ c ≠ '@'
  shape : match a.form with
    | .expression =>
      ∃ blanks, IsSpacing blanks ∧ a.text = opener ++ blanks ++ '(' :: a.body ++ [')']
    | .block => a.text = opener ++ a.body ++ blockCloser ∧
        IsFirstClose a.body (source.drop (a.start + opener.length))

theorem mayFollow_some {c : Char} (h : mayFollow (some c) = true) : isWord c = false ∧ c ≠ '@' := by
  simpa [mayFollow] using h

/-- What a piece that is found says about the whole template. -/
theorem FoundIn.located {here? : Nat → Text → Option Annotation} (hp : FindsPieces here?)
    {source : Text} {a : Annotation} (h : FoundIn here? source a) :
    a.start < a.stop ∧ a.stop ≤ source.length ∧
      a.text = (source.drop a.start).take (a.stop - a.start) ∧
      (∀ c, (source.take a.start).getLast? = some c → isWord c = false ∧ c ≠ '@') ∧
      here? a.start (source.drop a.start) = some a := by
  obtain ⟨u, v, rfl, hb, ha⟩ := h
  obtain ⟨hstart, hstop, hne, after, rfl⟩ := hp _ _ _ ha
  have hpos : 0 < a.text.length := List.length_pos_iff.mpr hne
  refine ⟨by omega, ?_, ?_, ?_, ?_⟩
  · simp only [List.length_append]
    omega
  · rw [hstart, List.drop_left, hstop, Nat.add_sub_cancel_left, List.take_left]
  · intro c hc
    rw [hstart, List.take_left] at hc
    exact mayFollow_some (hc ▸ hb)
  · rw [hstart, List.drop_left]
    exact ha

theorem wellPlaced_of_mem_expressions {source : Text} {a : Annotation}
    (h : a ∈ expressions source) : a.WellPlaced source ∧ a.form = .expression := by
  obtain ⟨hlt, hle, htext, hbefore, hhere⟩ :=
    (foundIn_of_mem_scanFrom h).located expressionHere?_findsPieces
  obtain ⟨blanks, _, hspacing, hform, hshape, _⟩ := expressionHere?_eq_some hhere
  refine ⟨⟨hlt, hle, htext, hbefore, ?_⟩, hform⟩
  rw [hform]
  exact ⟨blanks, hspacing, hshape⟩

theorem wellPlaced_of_mem_blocks {source : Text} {a : Annotation} (h : a ∈ blocks source) :
    a.WellPlaced source ∧ a.form = .block := by
  obtain ⟨hlt, hle, htext, hbefore, hhere⟩ :=
    (foundIn_of_mem_scanFrom h).located blockHere?_findsPieces
  obtain ⟨after, hform, hshape, hdrop, _, hfirst, _⟩ := blockHere?_eq_some hhere
  refine ⟨⟨hlt, hle, htext, hbefore, ?_⟩, hform⟩
  rw [hform]
  refine ⟨hshape, ?_⟩
  have hrest : source.drop (a.start + opener.length) = a.body ++ blockCloser ++ after := by
    rw [← List.drop_drop, hdrop, hshape]
    simp only [List.append_assoc, List.drop_left]
  rw [hrest]
  exact hfirst

/-! ## 2. Two annotations are apart -/

/-- One of two spans ends before the other begins. -/
def Apart (a b : Annotation) : Prop :=
  a.stop ≤ b.start ∨ b.stop ≤ a.start

theorem Apart.symm {a b : Annotation} (h : Apart a b) : Apart b a :=
  Or.symm h

/-- The parameter lists that overlap no block. -/
def freeExpressions (source : Text) : List Annotation :=
  (expressions source).filter fun a => !(blocks source).any a.overlaps

theorem extract_value (source : Text) :
    (extract source).value
      = sortOn (fun a => (a.start : Int)) (blocks source ++ freeExpressions source) := by
  simp only [extract, List.partition_eq_filter_filter]
  rfl

theorem mem_extract {source : Text} {a : Annotation} :
    a ∈ (extract source).value ↔ a ∈ blocks source ∨ a ∈ freeExpressions source := by
  rw [extract_value, (sortOn_perm _ _).mem_iff, List.mem_append]

theorem wellPlaced_of_mem_extract {source : Text} {a : Annotation}
    (h : a ∈ (extract source).value) : a.WellPlaced source := by
  rcases mem_extract.mp h with h | h
  · exact (wellPlaced_of_mem_blocks h).1
  · exact (wellPlaced_of_mem_expressions (List.mem_filter.mp h).1).1

theorem apart_of_not_overlaps {a b : Annotation} (h : a.overlaps b = false) : Apart a b := by
  have : ¬ (a.start < b.stop ∧ b.start < a.stop) := by simpa [overlaps] using h
  simp only [Apart]
  omega

/-- A parameter list that is kept is apart from every block. -/
theorem apart_of_mem_freeExpressions {source : Text} {a b : Annotation}
    (ha : a ∈ freeExpressions source) (hb : b ∈ blocks source) : Apart b a := by
  have hnone := (List.mem_filter.mp ha).2
  rw [Bool.not_eq_true', List.any_eq_false] at hnone
  exact (apart_of_not_overlaps (by simpa using hnone b hb)).symm

/-- The annotations of a template are apart, whatever their forms. -/
theorem blocks_append_free_apart (source : Text) :
    (blocks source ++ freeExpressions source).Pairwise Apart := by
  refine List.pairwise_append.mpr ⟨?_, ?_, fun b hb a ha => apart_of_mem_freeExpressions ha hb⟩
  · exact (scanFrom_ordered blockHere?_findsPieces source [] 0).imp .inl
  · exact ((scanFrom_ordered expressionHere?_findsPieces source [] 0).filter _).imp .inl

/-! ## 3. The partition -/

/-- The annotations come in the order of the template, and each ends before the next
begins. -/
theorem extract_ordered (source : Text) :
    (extract source).value.Pairwise (fun a b => a.start < b.start ∧ a.stop ≤ b.start) := by
  have hapart : (extract source).value.Pairwise Apart := by
    rw [extract_value, List.Perm.pairwise_iff Apart.symm (sortOn_perm _ _)]
    exact blocks_append_free_apart source
  have hsorted : (extract source).value.Pairwise (fun a b => (a.start : Int) ≤ b.start) := by
    rw [extract_value]
    exact sortOn_sorted _ _
  refine (hapart.and hsorted).imp_of_mem fun {a b} ha hb h => ?_
  have hlta := (wellPlaced_of_mem_extract ha).start_lt_stop
  have hltb := (wellPlaced_of_mem_extract hb).start_lt_stop
  obtain ⟨h | h, hle⟩ := h
  · omega
  · omega

theorem extract_consecutive (source : Text) :
    Consecutive source.length 0 (extract source).value := by
  refine consecutive_of_ordered (Nat.zero_le _) (fun a _ => Nat.zero_le a.start) ?_ ?_
  · intro a ha
    have := wellPlaced_of_mem_extract ha
    exact ⟨this.start_lt_stop, this.stop_le_length⟩
  · exact (extract_ordered source).imp And.right

end ViewContract.Annotation
