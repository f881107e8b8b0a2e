/-
ViewContract.Text.Basic — text as a list of code points.

Every offset the library reports counts code points, and every scan below is
a recursion on the list, so `Text` is `List Char` and nothing else. The
module holds the cuts that more than one scanner needs: at a separator, at
both ends, at signed offsets.
-/

namespace ViewContract

/-- Text as code points: an offset is a position in the list. -/
abbrev Text := List Char

namespace Text

/-! ## 1. Cutting -/

/-- The pieces of a text between the occurrences of a separator, at least one. -/
def splitOn (sep : Char) : Text → List Text
  | [] => [[]]
  | c :: rest =>
    match splitOn sep rest with
    | [] => [[c]]
    | piece :: pieces => if c = sep then [] :: piece :: pieces else (c :: piece) :: pieces

/-- A text without the characters at its end that satisfy `p`. -/
def dropEndWhile (p : Char → Bool) (t : Text) : Text :=
  (t.reverse.dropWhile p).reverse

/-- A text without its last `n` characters. -/
def dropEnd (n : Nat) (t : Text) : Text :=
  t.take (t.length - n)

/-- How many line feeds a text holds. -/
def lineFeeds (t : Text) : Nat :=
  t.count '\n'

/-! ## 2. Signed offsets -/

/-- Where a signed offset points in a text of `length` characters: a negative
one counts from the end, and what lies outside is moved to the nearer end. -/
def position (length : Nat) (offset : Int) : Nat :=
  min length (if offset < 0 then (offset + length).toNat else offset.toNat)

/-- The characters from one signed offset up to another; none if they cross. -/
def slice (t : Text) (start stop : Int) : Text :=
  let first := position t.length start
  (t.drop first).take (position t.length stop - first)

/-- The characters from a signed offset to the end. -/
def sliceFrom (t : Text) (start : Int) : Text :=
  t.drop (position t.length start)

/-- An offset inside the text is its own position. -/
theorem position_ofNat (length n : Nat) (h : n ≤ length) : position length n = n := by
  have h0 : ¬ (n : Int) < 0 := by omega
  simp [position, h0, h]

/-- Between offsets inside the text a slice is what lies between them. -/
theorem slice_ofNat (t : Text) (start stop : Nat) (h : start ≤ stop) (hs : stop ≤ t.length) :
    slice t start stop = (t.drop start).take (stop - start) := by
  simp [slice, position_ofNat, hs, Nat.le_trans h hs]

/-- From an offset inside the text a slice is what follows it. -/
theorem sliceFrom_ofNat (t : Text) (start : Nat) (h : start ≤ t.length) :
    sliceFrom t start = t.drop start := by
  simp [sliceFrom, position_ofNat, h]

end Text

end ViewContract
