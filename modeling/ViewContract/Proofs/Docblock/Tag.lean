/-
ViewContract.Proofs.Docblock.Tag — the tags of a doc comment, without their numbers.

A tag remembers the line on which it begins, for the errors. What it declares comes from its name
and its text alone, and these come from the lines that say something once their decoration is
off:

  §1 the lines that say something (`written`), and the names and texts of the tags in them.
  §2 the declaration of a tag does not depend on its line.
  §3 bodies whose tags are the same but for their lines declare the same
     (`declarations_of_contents`), and so do those whose written lines are (`declarations_congr`).
  §4 two bodies on top of each other (`declarations_join`).
-/
import ViewContract.Proofs.Docblock.Union
import ViewContract.Proofs.Text.Lines

namespace ViewContract

open Text

namespace Docblock

/-! ## 1. Written lines -/

/-- The lines of a body that are not empty without their decoration, without it. -/
def written (ls : List Text) : List Text :=
  (ls.map stripDecoration).filter (!·.isEmpty)

/-- The name of a tag and its text, without its line. -/
def Tag.content (tag : Tag) : Text × Text :=
  (tag.name, tag.rest)

/-- The text in front of the first tag, and the names and texts of the tags. -/
def contents : List Text → Text × List (Text × Text)
  | [] => ([], [])
  | line :: ls =>
    match openTag? line with
    | some (name, rest) => ([], (lower name, rest ++ (contents ls).1) :: (contents ls).2)
    | none => (' ' :: line ++ (contents ls).1, (contents ls).2)

theorem written_append (ls ls' : List Text) : written (ls ++ ls') = written ls ++ written ls' := by
  rw [written, List.map_append, List.filter_append]
  rfl

theorem written_cons (l : Text) (ls : List Text) :
    written (l :: ls)
      = if stripDecoration l = [] then written ls else stripDecoration l :: written ls := by
  rw [written, List.map_cons, List.filter_cons]
  cases hstrip : stripDecoration l <;> rfl

/-- The tags of numbered lines, by the written ones among them. -/
theorem tagsFrom_eq (number : Nat) (ls : List Text) :
    ((tagsFrom number ls).1, (tagsFrom number ls).2.map Tag.content) = contents (written ls) := by
  induction ls generalizing number with
  | nil => rfl
  | cons l ls ih =>
    have hlater := ih (number + 1)
    rw [tagsFrom, written_cons]
    cases hstrip : stripDecoration l with
    | nil => exact hlater
    | cons c line =>
      rw [if_neg (List.cons_ne_nil c line), contents, ← hlater]
      dsimp only [List.isEmpty_cons]
      rw [if_neg Bool.false_ne_true]
      cases openTag? (c :: line) <;> rfl

/-- The names and texts of the tags of a body. -/
theorem contents_tags (body : Text) :
    (tags body).map Tag.content = (contents (written (lines body))).2 :=
  congrArg Prod.snd (tagsFrom_eq 1 (lines body))

/-- Lines that begin with a tag leave the tags before them as they are. -/
theorem contents_append {ls ls' : List Text} (h : (contents ls').1 = []) :
    contents (ls ++ ls') = ((contents ls).1, (contents ls).2 ++ (contents ls').2) := by
  induction ls with
  | nil => exact Prod.ext h rfl
  | cons l ls ih =>
    rw [List.cons_append, contents, contents, ih]
    cases openTag? l <;> rfl

/-- Nothing stands in front of a tag on the first line. -/
theorem contents_fst_eq_nil {ls : List Text}
    (h : ∀ first, ls.head? = some first → (openTag? first).isSome = true) :
    (contents ls).1 = [] := by
  cases ls with
  | nil => rfl
  | cons l ls =>
    obtain ⟨⟨name, rest⟩, hopen⟩ := Option.isSome_iff_exists.mp (h l rfl)
    rw [contents, hopen]

/-! ## 2. Tags on other lines -/

theorem Tag.typeMembers_of_line {tag tag' : Tag} {rest after : Text} {ms : List Member}
    (h : tag.typeMembers rest = .ok (ms, after)) : tag'.typeMembers rest = .ok (ms, after) := by
  rw [typeMembers] at h ⊢
  split at h
  · rwa [if_pos ‹_›]
  · rw [if_neg ‹_›]
    obtain ⟨⟨expr, left⟩, hscan, h⟩ := exists_of_bind_eq_ok h
    obtain ⟨read, hread, h⟩ := exists_of_bind_eq_ok h
    rw [scanType_of_line hscan]
    show (do
      let ms ← members tag'.line expr
      pure (ms, trim left)) = _
    rw [members_of_line hread]
    exact h

/-- A tag declares the same on every line. -/
theorem Tag.declaration_of_line {tag tag' : Tag} (hcontent : tag.content = tag'.content)
    {d : Declaration} (h : tag.declaration = .ok d) : tag'.declaration = .ok d := by
  obtain ⟨-, hrest⟩ := Prod.mk.inj hcontent
  rw [declaration, ← hrest]
  rw [declaration] at h
  dsimp only at h ⊢
  by_cases hempty : (trim tag.rest).isEmpty = true
  · rw [if_pos hempty] at h
    cases h
  · rw [if_neg hempty] at h ⊢
    obtain ⟨⟨ms, rest⟩, hms, h⟩ := exists_of_bind_eq_ok h
    rw [typeMembers_of_line (eq_ok_of_mapError hms)]
    simp only [Except.mapError, bind, Except.bind]
    cases hvariable : leadingVariable? rest with
    | none =>
      rw [hvariable] at h
      cases h
    | some found =>
      rw [hvariable] at h
      exact h

/-- Tags with the same names and texts declare the same. -/
theorem declarationsOf_congr {ts ts' : List Tag} (h : ts.map Tag.content = ts'.map Tag.content)
    {ds : List Declaration} (hds : declarationsOf ts = .ok ds) : declarationsOf ts' = .ok ds := by
  induction ts generalizing ts' ds with
  | nil =>
    obtain rfl := List.map_eq_nil_iff.mp h.symm
    exact hds
  | cons tag ts ih =>
    cases ts' with
    | nil => exact nomatch h
    | cons tag' ts' =>
      obtain ⟨hcontent, hlater⟩ := List.cons.inj h
      have hsame : tag.declares = tag'.declares := by
        rw [Tag.declares, Tag.declares, (Prod.mk.inj hcontent).1]
      rw [declarationsOf] at hds ⊢
      rw [← hsame]
      split at hds
      · rename_i hdeclares
        obtain ⟨d, hd, hds⟩ := exists_of_bind_eq_ok hds
        obtain ⟨others, hothers, hds⟩ := exists_of_bind_eq_ok hds
        rw [if_pos hdeclares, Tag.declaration_of_line hcontent hd, ih hlater hothers]
        exact hds
      · rename_i hdeclares
        rw [if_neg hdeclares]
        exact ih hlater hds

/-! ## 3. Bodies -/

/-- Bodies with the same names and texts of tags declare the same. -/
theorem declarations_of_contents {body body' : Text}
    (h : (contents (written (lines body))).2 = (contents (written (lines body'))).2)
    (ds : List Declaration) :
    (declarations body).value = .ok ds ↔ (declarations body').value = .ok ds := by
  have honeway : ∀ {b b' : Text},
      (contents (written (lines b))).2 = (contents (written (lines b'))).2 →
      (declarations b).value = .ok ds → (declarations b').value = .ok ds := by
    intro b b' hsame hb
    obtain ⟨read, hread, hdistinct⟩ := exists_of_bind_eq_ok hb
    have hcontents : (tags b).map Tag.content = (tags b').map Tag.content := by
      rw [contents_tags, contents_tags, hsame]
    show (declarationsOf (tags b') >>= distinct) = .ok ds
    rw [declarationsOf_congr hcontents hread]
    exact hdistinct
  exact ⟨honeway h, honeway h.symm⟩

/-- Bodies whose written lines are the same declare the same. -/
theorem declarations_congr {body body' : Text} (h : written (lines body) = written (lines body'))
    (ds : List Declaration) :
    (declarations body).value = .ok ds ↔ (declarations body').value = .ok ds :=
  declarations_of_contents (by rw [h]) ds

theorem declarationsOf_append {ts ts' : List Tag} {ds ds' : List Declaration}
    (h : declarationsOf ts = .ok ds) (h' : declarationsOf ts' = .ok ds') :
    declarationsOf (ts ++ ts') = .ok (ds ++ ds') := by
  induction ts generalizing ds with
  | nil =>
    obtain rfl := Except.ok.inj h
    exact h'
  | cons tag ts ih =>
    rw [declarationsOf] at h
    rw [List.cons_append, declarationsOf]
    split at h
    · rename_i hdeclares
      obtain ⟨d, hd, h⟩ := exists_of_bind_eq_ok h
      obtain ⟨others, hothers, h⟩ := exists_of_bind_eq_ok h
      obtain rfl := Except.ok.inj h
      rw [if_pos hdeclares, hd, ih hothers]
      rfl
    · rename_i hdeclares
      rw [if_neg hdeclares]
      exact ih h

/-- The written lines of two bodies on top of each other are those of both. -/
theorem written_join (body rest : Text) :
    written (lines (body ++ '\n' :: rest)) = written (lines body) ++ written (lines rest) := by
  rcases lines_join body rest with hlines | hlines
  · rw [hlines, written_append]
  · rw [hlines, written_append, written_cons]
    rfl

/-- Two bodies on top of each other declare what the first and then the second declares, if the
second has nothing to say in front of its first tag and they have no name in common. -/
theorem declarations_join {body rest : Text} {ds ds' : List Declaration}
    (h : (declarations body).value = .ok ds) (h' : (declarations rest).value = .ok ds')
    (hfirst : ∀ first, (written (lines rest)).head? = some first → (openTag? first).isSome = true)
    (hdisjoint : ∀ d ∈ ds, ∀ d' ∈ ds', d.name ≠ d'.name) :
    (declarations (body ++ '\n' :: rest)).value = .ok (ds ++ ds') := by
  obtain ⟨read, hread, hdistinct⟩ := exists_of_bind_eq_ok h
  obtain ⟨read', hread', hdistinct'⟩ := exists_of_bind_eq_ok h'
  obtain ⟨rfl, hnodup⟩ := nodup_of_distinct hdistinct
  obtain ⟨rfl, hnodup'⟩ := nodup_of_distinct hdistinct'
  have hcontents : (tags body ++ tags rest).map Tag.content
      = (tags (body ++ '\n' :: rest)).map Tag.content := by
    rw [List.map_append, contents_tags, contents_tags, contents_tags, written_join,
      contents_append (contents_fst_eq_nil hfirst)]
  show (declarationsOf (tags (body ++ '\n' :: rest)) >>= distinct) = _
  rw [declarationsOf_congr hcontents (declarationsOf_append hread hread')]
  exact distinct_eq_ok (nodup_names_append hnodup hnodup' hdisjoint)

end Docblock

end ViewContract
