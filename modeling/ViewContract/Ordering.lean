/-
ViewContract.Ordering — a stable sort by a key.

Items with equal keys keep the order in which they came.
-/

namespace ViewContract

/-- Insert an item before the first one whose key is not smaller. -/
def insertOn {α : Type} (key : α → Int) (a : α) : List α → List α
  | [] => [a]
  | b :: rest => if key a ≤ key b then a :: b :: rest else b :: insertOn key a rest

/-- Items in ascending order of their keys. -/
def sortOn {α : Type} (key : α → Int) : List α → List α
  | [] => []
  | a :: rest => insertOn key a (sortOn key rest)

/-- Inserting loses nothing and adds nothing else. -/
theorem insertOn_perm {α : Type} (key : α → Int) (a : α) (l : List α) :
    (insertOn key a l).Perm (a :: l) := by
  induction l with
  | nil => exact .refl _
  | cons b rest ih =>
    rw [insertOn]
    split
    · exact .refl _
    · exact (ih.cons b).trans (.swap a b rest)

/-- Sorting only reorders. -/
theorem sortOn_perm {α : Type} (key : α → Int) (l : List α) : (sortOn key l).Perm l := by
  induction l with
  | nil => exact .refl _
  | cons a rest ih => exact (insertOn_perm key a _).trans (ih.cons a)

/-- Inserting into ascending items keeps them ascending. -/
theorem insertOn_sorted {α : Type} (key : α → Int) (a : α) (l : List α)
    (h : l.Pairwise (key · ≤ key ·)) : (insertOn key a l).Pairwise (key · ≤ key ·) := by
  induction l with
  | nil => simp [insertOn]
  | cons b rest ih =>
    rw [List.pairwise_cons] at h
    rw [insertOn]
    split
    · next hab =>
      refine List.pairwise_cons.2 ⟨fun c hc => ?_, List.pairwise_cons.2 h⟩
      rcases List.mem_cons.1 hc with rfl | hc
      · exact hab
      · exact Int.le_trans hab (h.1 c hc)
    · next hab =>
      refine List.pairwise_cons.2 ⟨fun c hc => ?_, ih h.2⟩
      rcases List.mem_cons.1 ((insertOn_perm key a rest).mem_iff.1 hc) with rfl | hc
      · omega
      · exact h.1 c hc

/-- Sorted items ascend. -/
theorem sortOn_sorted {α : Type} (key : α → Int) (l : List α) :
    (sortOn key l).Pairwise (key · ≤ key ·) := by
  induction l with
  | nil => exact .nil
  | cons a rest ih => exact insertOn_sorted key a _ ih

end ViewContract
