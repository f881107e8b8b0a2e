/-
ViewContract.Proofs.Splice — splicing at spans that follow one another.

`splice` takes replacements in any order, sorts them and goes over the text with a
cursor. For spans of annotations that are ordered and lie in the text there is nothing
to sort and nothing to refuse: the result is `weave`, the pieces between the spans with
a code in place of each (`splice_edits`). The pieces and the codes can also be listed first
and put together afterwards (`weave_eq_interleave`).
-/
import ViewContract.Annotation.Basic
import ViewContract.Splice

namespace ViewContract

open Text

/-! ## 1. Sorting what is sorted -/

/-- An item that is not greater than any other is inserted in front. -/
theorem insertOn_of_le {α : Type} (key : α → Int) (a : α) : ∀ (l : List α),
    (∀ b ∈ l, key a ≤ key b) → insertOn key a l = a :: l
  | [], _ => rfl
  | b :: rest, h => by rw [insertOn, if_pos (h b List.mem_cons_self)]

/-- Ascending items stay as they are. -/
theorem sortOn_eq_self {α : Type} (key : α → Int) (l : List α)
    (h : l.Pairwise (key · ≤ key ·)) : sortOn key l = l := by
  induction l with
  | nil => rfl
  | cons a rest ih =>
    rw [List.pairwise_cons] at h
    rw [sortOn, ih h.2, insertOn_of_le key a rest h.1]

/-! ## 2. Annotations and what takes their places -/

/-- An annotation with the code that takes its place, if any does. -/
abbrev Edit := Annotation × Option Text

theorem map_fst_edits (l : List Annotation) (code : Annotation → Option Text) :
    (l.map fun a => ((a, code a) : Edit)).map Prod.fst = l := by
  rw [List.map_map]
  exact List.map_id l

/-- An edit as a replacement of the span. -/
def Edit.replacement (e : Edit) : Replacement :=
  { start := e.1.start, stop := e.1.stop, text := e.2 }

/-- The text from `cursor` on with codes in place of spans. -/
def weave (source : Text) (cursor : Nat) : List Edit → Text
  | [] => source.drop cursor
  | e :: rest =>
    (source.drop cursor).take (e.1.start - cursor) ++ e.2.getD [] ++ weave source e.1.stop rest

/-- The pieces of a text between spans, from `cursor` on. -/
def pieces (source : Text) (cursor : Nat) : List Annotation → List Text
  | [] => [source.drop cursor]
  | a :: rest => (source.drop cursor).take (a.start - cursor) :: pieces source a.stop rest

/-- Spans that follow one another from `cursor` on and end in a text of `length`
characters. -/
def Consecutive (length cursor : Nat) : List Annotation → Prop
  | [] => cursor ≤ length
  | a :: rest => cursor ≤ a.start ∧ a.start < a.stop ∧ Consecutive length a.stop rest

theorem Consecutive.cursor_le {length : Nat} : ∀ {cursor : Nat} {l : List Annotation},
    Consecutive length cursor l → cursor ≤ length
  | _, [], h => h
  | _, _ :: _, ⟨h1, h2, h3⟩ => Nat.le_trans h1 (Nat.le_trans (Nat.le_of_lt h2) h3.cursor_le)

/-- Ordered spans in a text are consecutive. -/
theorem consecutive_of_ordered {length : Nat} : ∀ {cursor : Nat} {l : List Annotation},
    cursor ≤ length → (∀ a ∈ l, cursor ≤ a.start) →
    (∀ a ∈ l, a.start < a.stop ∧ a.stop ≤ length) →
    l.Pairwise (fun a b => a.stop ≤ b.start) → Consecutive length cursor l
  | _, [], hc, _, _, _ => hc
  | _, a :: rest, _, hfrom, hin, hord => by
    obtain ⟨hlt, hle⟩ := hin a List.mem_cons_self
    rw [List.pairwise_cons] at hord
    exact ⟨hfrom a List.mem_cons_self, hlt, consecutive_of_ordered hle hord.1
      (fun b hb => hin b (List.mem_cons_of_mem a hb)) hord.2⟩

/-- The starts of consecutive spans ascend. -/
theorem Consecutive.sorted {length : Nat} : ∀ {cursor : Nat} {l : List Annotation},
    Consecutive length cursor l →
    (∀ a ∈ l, cursor ≤ a.start) ∧ l.Pairwise (fun a b => a.start ≤ b.start)
  | _, [], _ => ⟨fun _ h => absurd h List.not_mem_nil, .nil⟩
  | cursor, a :: rest, ⟨h1, h2, h3⟩ => by
    obtain ⟨hfrom, hsorted⟩ := h3.sorted
    refine ⟨fun b hb => ?_, List.pairwise_cons.mpr ⟨fun b hb => ?_, hsorted⟩⟩
    · rcases List.mem_cons.mp hb with rfl | hb
      · exact h1
      · have := hfrom b hb
        omega
    · have := hfrom b hb
      omega

/-- A splice at consecutive spans goes through and is the weave. -/
theorem spliceFrom_edits (source : Text) : ∀ (edits : List Edit) (cursor : Nat),
    Consecutive source.length cursor (edits.map Prod.fst) →
    spliceFrom source cursor (edits.map Edit.replacement) = .ok (weave source cursor edits)
  | [], cursor, h => by
    rw [List.map_nil, spliceFrom, sliceFrom_ofNat source cursor h, weave]
  | e :: rest, cursor, h => by
    obtain ⟨h1, h2, h3⟩ : cursor ≤ e.1.start ∧ e.1.start < e.1.stop ∧
      Consecutive source.length e.1.stop (rest.map Prod.fst) := h
    have hlt : ¬ (e.replacement.start < (cursor : Int)) := by
      simp only [Edit.replacement]
      omega
    have hle : e.1.start ≤ source.length := by
      have := h3.cursor_le
      omega
    rw [List.map_cons, spliceFrom, if_neg hlt,
      show e.replacement.stop = (e.1.stop : Int) from rfl, spliceFrom_edits source rest _ h3,
      show e.replacement.start = (e.1.start : Int) from rfl, slice_ofNat source _ _ h1 hle]
    rfl

theorem splice_edits {source : Text} {edits : List Edit}
    (h : Consecutive source.length 0 (edits.map Prod.fst)) :
    splice source (edits.map Edit.replacement) = .ok (weave source 0 edits) := by
  have hsorted : (edits.map Edit.replacement).Pairwise (fun r s => r.start ≤ s.start) := by
    have := h.sorted.2
    rw [List.pairwise_map] at this ⊢
    refine this.imp fun {e f} hef => ?_
    simp only [Edit.replacement]
    omega
  rw [splice, sortOn_eq_self _ _ hsorted]
  exact spliceFrom_edits source edits 0 h

/-! ## 3. Pieces and codes in turns -/

/-- Pieces with a code after each of them, as long as there are codes. -/
def interleave {α : Type} : List (List α) → List (List α) → List α
  | piece :: pieces, code :: codes => piece ++ code ++ interleave pieces codes
  | pieces, _ => pieces.flatten

/-- Codes without a text leave the pieces. -/
theorem interleave_nils {α β : Type} : ∀ (pieces : List (List α)) (codes : List β),
    interleave pieces (codes.map fun _ => []) = pieces.flatten
  | [], _ | _ :: _, [] => rfl
  | piece :: pieces, _ :: codes => by
    rw [List.map_cons, interleave, interleave_nils pieces codes, List.append_nil, List.flatten_cons]

/-- The piece after the last code stands at the end. -/
theorem interleave_concat {α : Type} (last : List α) : ∀ (pieces codes : List (List α)),
    codes.length = pieces.length →
    interleave (pieces ++ [last]) codes = interleave pieces codes ++ last
  | [], [], _ => List.append_nil last
  | piece :: pieces, code :: codes, h => by
    rw [List.cons_append, interleave, interleave_concat last pieces codes (Nat.succ.inj h),
      interleave, ← List.append_assoc]

theorem mem_interleave {α : Type} {a : α} : ∀ {pieces codes : List (List α)},
    a ∈ interleave pieces codes → (∃ piece ∈ pieces, a ∈ piece) ∨ ∃ code ∈ codes, a ∈ code
  | piece :: pieces, code :: codes, h => by
    rw [interleave, List.mem_append, List.mem_append] at h
    rcases h with (h | h) | h
    · exact .inl ⟨piece, List.mem_cons_self, h⟩
    · exact .inr ⟨code, List.mem_cons_self, h⟩
    · refine (mem_interleave h).imp ?_ ?_
      · exact fun ⟨p, hp, ha⟩ => ⟨p, List.mem_cons_of_mem piece hp, ha⟩
      · exact fun ⟨c, hc, ha⟩ => ⟨c, List.mem_cons_of_mem code hc, ha⟩
  | [], _, h => .inl (List.mem_flatten.mp h)
  | piece :: pieces, [], h => .inl (List.mem_flatten.mp h)

/-- There is a piece before each annotation and one after the last. -/
theorem length_pieces (source : Text) : ∀ (cursor : Nat) (l : List Annotation),
    (pieces source cursor l).length = l.length + 1
  | _, [] => rfl
  | _, a :: rest => by
    rw [pieces, List.length_cons, length_pieces source a.stop rest, List.length_cons]

theorem weave_eq_interleave (source : Text) : ∀ (cursor : Nat) (edits : List Edit),
    weave source cursor edits
      = interleave (pieces source cursor (edits.map Prod.fst)) (edits.map fun e => e.2.getD [])
  | _, [] => (List.append_nil _).symm
  | _, e :: rest => by
    rw [weave, weave_eq_interleave source e.1.stop rest, List.map_cons, List.map_cons, pieces,
      interleave]

end ViewContract
