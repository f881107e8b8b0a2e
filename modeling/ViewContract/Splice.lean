/-
ViewContract.Splice — replacing spans of a text.

All offsets point into the text as it is given, and the spans are taken in the
order of their starts. What lies between them is kept as it is; a span that begins before the
end of the one before it is an error. Offsets are signed, and a cut is made as
`Text.slice` says.
-/
import ViewContract.Ordering
import ViewContract.Text.Basic

namespace ViewContract

open Text

/-- A span with the text that takes its place; without one it is removed. -/
structure Replacement where
  start : Int
  stop : Int
  text : Option Text := none
  deriving DecidableEq, Repr

/-- A span begins before the end of the one before it. -/
structure Overlap where
  start : Int
  stop : Int
  previousStop : Int
  deriving DecidableEq, Repr

/-- The wording of an overlap. -/
def Overlap.message (o : Overlap) : String :=
  s!"Overlapping span {o.start}..{o.stop} (previous span ends at {o.previousStop})"

/-- The text from `cursor` on with replacements made in the order given. -/
def spliceFrom (source : Text) (cursor : Int) : List Replacement → Except Overlap Text
  | [] => .ok (sliceFrom source cursor)
  | r :: rest =>
    if r.start < cursor then .error ⟨r.start, r.stop, cursor⟩
    else do
      let after ← spliceFrom source r.stop rest
      pure (slice source cursor r.start ++ r.text.getD [] ++ after)

/-- A text with spans replaced, in whatever order they are given. -/
def splice (source : Text) (replacements : List Replacement) : Except Overlap Text :=
  spliceFrom source 0 (sortOn Replacement.start replacements)

end ViewContract
