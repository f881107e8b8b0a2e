/-
ViewContract.Proofs.Docblock.Decoration — the decoration of a doc comment is transparent.

The lines of a body may be set in a comment: an opening mark on a line of its own, a star in front
of each line, and a closing mark. A line is freed of these by cutting a mark off its start, one off
its end and then a star, with blanks trimmed before, between and after. So a line that itself ends
like a comment, or begins with blanks, loses the same with a star in front as without:

  §1 the end of a line is cut off alike behind whatever does not run into it.
  §2 a line with a star in front is what the line is (`stripDecoration_starred`).
  §3 whole bodies (`declarations_decorated`).
-/
import ViewContract.Proofs.Docblock.Line
import ViewContract.Proofs.Docblock.Tag

namespace ViewContract

open Text

namespace Docblock

/-! ## 1. The end of a line -/

theorem dropTail_append_self (before tail : Text) : dropTail tail (before ++ tail) = before := by
  have hsuffix : tail.isSuffixOf (before ++ tail) = true :=
    List.isSuffixOf_iff_suffix.mpr (List.suffix_append before tail)
  rw [dropTail, if_pos hsuffix, dropEnd, List.length_append, Nat.add_sub_cancel, List.take_left]

theorem dropTail_of_not_suffix {tail t : Text} (h : ¬ tail <:+ t) : dropTail tail t = t :=
  if_neg (mt List.isSuffixOf_iff_suffix.mp h)

/-- What is cut off the end is not part of a text in front whose last character is not in it. -/
theorem dropTail_append {before tail t : Text} (h : ∀ c, before.getLast? = some c → c ∉ tail) :
    dropTail tail (before ++ t) = before ++ dropTail tail t := by
  by_cases hsuffix : tail <:+ t
  · obtain ⟨lead, rfl⟩ := hsuffix
    rw [← List.append_assoc, dropTail_append_self, dropTail_append_self]
  · rw [dropTail_of_not_suffix hsuffix, dropTail_of_not_suffix]
    rintro ⟨lead, hlead⟩
    rcases List.append_eq_append_iff.mp hlead with ⟨left, hbefore, htail⟩ | ⟨left, _, ht⟩
    · cases hlast : left.getLast? with
      | none =>
        obtain rfl := List.getLast?_eq_none_iff.mp hlast
        exact hsuffix (htail ▸ List.suffix_refl _)
      | some c =>
        refine h c ?_ (htail ▸ List.mem_append_left t (List.mem_of_getLast? hlast))
        rw [hbefore, List.getLast?_append, hlast]
        rfl
    · exact hsuffix ⟨left, ht.symm⟩

theorem dropTail_isPrefix (tail t : Text) : dropTail tail t <+: t := by
  rw [dropTail]
  split
  · exact List.take_prefix _ _
  · exact List.prefix_refl t

/-! ## 2. One line -/

/-- A line that does not begin like decoration, blanks apart. -/
structure Bare (line : Text) : Prop where
  oneLine : ∀ c ∈ line, isLineBreak c = false
  noStar : (trim line).head? ≠ some '*'
  noOpening : ¬ "/**".toList <+: trim line

theorem dropLead_of_not_prefix {lead t : Text} (h : ¬ lead <+: t) : dropLead lead t = t := by
  rw [dropLead]
  cases hlead : lead.isPrefixOf? t with
  | none => rfl
  | some rest =>
    exact absurd ⟨rest, List.append_eq_of_isPrefixOf?_eq_some hlead⟩ h

/-- Of a line that does not begin like decoration only the end is cut off. -/
theorem stripDecoration_tail {line : Text} (hstar : (trim line).head? ≠ some '*')
    (hopening : ¬ "/**".toList <+: trim line) :
    stripDecoration line = trim (dropTail "*/".toList (trim line)) := by
  obtain ⟨_, _, _, _, _, hstart, _⟩ := exists_trim line
  have hnone : ¬ "*".toList <+: trim (dropTail "*/".toList (trim line)) := by
    obtain ⟨tail, htail⟩ := dropTail_isPrefix "*/".toList (trim line)
    cases hleft : dropTail "*/".toList (trim line) with
    | nil => decide
    | cons c rest =>
      rw [hleft] at htail
      rw [← htail] at hstart
      have hc : isBlank c = false := by simpa using hstart
      have hne : c ≠ '*' := by
        rintro rfl
        exact hstar (htail ▸ rfl)
      obtain ⟨inner, hinner, _⟩ := exists_trim_cons hc rest
      rw [hinner]
      exact fun hprefix => hne (List.cons_prefix_cons.mp hprefix).1.symm
  simp only [stripDecoration, dropLead_of_not_prefix hopening, dropLead_of_not_prefix hnone,
    trim_trim]

/-- Blanks alone are trimmed to the star in front of them. -/
theorem stripDecoration_star {line : Text} (h : ∀ c ∈ line, isBlank c = true) :
    stripDecoration (" * ".toList ++ line) = [] := by
  have htrim : trim ([' '] ++ ['*'] ++ (' ' :: line)) = ['*'] :=
    trim_append (List.forall_mem_singleton.mpr (by decide))
      (List.forall_mem_cons.mpr ⟨by decide, h⟩) (by decide) (by decide)
  have hcut : " * ".toList ++ line = [' '] ++ ['*'] ++ (' ' :: line) := rfl
  rw [stripDecoration, hcut, htrim]
  decide

/-- A star in front of a line is cut off with the blank behind it. -/
theorem stripDecoration_starred {line : Text} (h : Bare line) :
    stripDecoration (" * ".toList ++ line) = stripDecoration line := by
  obtain ⟨before, after, hcut, hbefore, hafter, hstart, hend⟩ := exists_trim line
  rw [stripDecoration_tail h.noStar h.noOpening]
  cases hline : trim line with
  | nil =>
    rw [hline, List.append_nil] at hcut
    rw [stripDecoration_star fun c hc => ?_]
    · rfl
    · rw [hcut] at hc
      exact (List.mem_append.mp hc).elim (hbefore c) (hafter c)
  | cons d m =>
    rw [hline] at hcut hstart hend
    have hblank : ∀ c ∈ ' ' :: before, isBlank c = true :=
      List.forall_mem_cons.mpr ⟨by decide, hbefore⟩
    have htrim : trim (" * ".toList ++ line) = ('*' :: ' ' :: before) ++ d :: m := by
      have hlast := List.getLast?_eq_some_getLast (List.cons_ne_nil d m)
      have h : trim ([' '] ++ (('*' :: ' ' :: before) ++ d :: m) ++ after)
          = ('*' :: ' ' :: before) ++ d :: m := by
        have hstar : (('*' :: ' ' :: before) ++ d :: m).head?.all (!isBlank ·) = true := by
          show (!isBlank '*') = true
          decide
        refine trim_append (List.forall_mem_singleton.mpr (by decide)) hafter hstar ?_
        rwa [List.getLast?_append, hlast, Option.some_or, ← hlast]
      rw [← h, hcut]
      simp
    have hclosing : dropTail "*/".toList (('*' :: ' ' :: before) ++ d :: m)
        = ('*' :: ' ' :: before) ++ dropTail "*/".toList (d :: m) := by
      refine dropTail_append fun c hc => ?_
      have hblank := hblank c (List.mem_of_getLast? (by rwa [List.getLast?_cons_cons] at hc))
      have hne : ∀ d, isBlank d = false → c ≠ d := fun d => ne_of_isBlank hblank
      simp [hne '*' (by decide), hne '/' (by decide)]
    have hopening : dropLead "/**".toList (('*' :: ' ' :: before) ++ d :: m)
        = ('*' :: ' ' :: before) ++ d :: m := dropLead_of_ne (by decide)
    obtain ⟨rest, hrest, hinner⟩ := @exists_trim_cons '*' (by decide)
      (' ' :: before ++ dropTail "*/".toList (d :: m))
    have hstar : dropLead "*".toList ('*' :: rest) = rest := by simp [dropLead, List.isPrefixOf?]
    rw [trim_append_left hblank] at hinner
    simp only [stripDecoration, htrim, hopening, hclosing]
    rw [List.cons_append, hrest, hstar, hinner]

/-! ## 3. Whole bodies -/

/-- The lines of a body in a comment: an opening mark, a star in front of each line, and a closing
mark. -/
def decoratedLines (ls : List Text) : List Text :=
  "/**".toList :: (ls.map (" * ".toList ++ ·) ++ [" */".toList])

/-- The body of lines in a comment. -/
def decorated (ls : List Text) : Text :=
  ['\n'].intercalate (decoratedLines ls)

theorem written_line {l : Text} (h : ∀ c ∈ l, isLineBreak c = false) :
    written (lines l) = written [l] := by
  rw [lines_of_forall h]
  split
  · rename_i hnone
    rw [hnone]
    rfl
  · rfl

/-- The written lines of a body are those of the lines that it is joined of. -/
theorem written_intercalate {ls : List Text} (h : ∀ l ∈ ls, ∀ c ∈ l, isLineBreak c = false) :
    written (lines (['\n'].intercalate ls)) = written ls := by
  induction ls with
  | nil => rfl
  | cons l ls ih =>
    have hl := written_line (h l List.mem_cons_self)
    have hlater := ih fun k hk => h k (List.mem_cons_of_mem l hk)
    cases ls with
    | nil => rwa [List.intercalate_singleton]
    | cons l' ls =>
      rw [List.intercalate_cons_cons, List.append_assoc, List.singleton_append, written_join, hl,
        hlater, ← written_append]
      rfl

/-- The marks of a comment say nothing, and its stars are cut off. -/
theorem written_decoratedLines {ls : List Text} (h : ∀ l ∈ ls, Bare l) :
    written (decoratedLines ls) = written ls := by
  have hopening : stripDecoration "/**".toList = [] := by decide
  have hclosing : written [" */".toList] = [] := by decide
  have hstars : ls.map (fun l => stripDecoration (" * ".toList ++ l)) = ls.map stripDecoration :=
    List.map_congr_left fun l hl => stripDecoration_starred (h l hl)
  rw [decoratedLines, written_cons, if_pos hopening, written_append, hclosing, List.append_nil,
    written, written, List.map_map, Function.comp_def, hstars]

theorem oneLine_of_mem_decoratedLines {ls : List Text} (h : ∀ l ∈ ls, Bare l) :
    ∀ l ∈ decoratedLines ls, ∀ c ∈ l, isLineBreak c = false := by
  have hopening : ∀ c ∈ "/**".toList, isLineBreak c = false := forall_mem_of_all (by decide)
  have hstar : ∀ c ∈ " * ".toList, isLineBreak c = false := forall_mem_of_all (by decide)
  have hclosing : ∀ c ∈ " */".toList, isLineBreak c = false := forall_mem_of_all (by decide)
  refine List.forall_mem_cons.mpr ⟨hopening, fun l hl c hc => ?_⟩
  rcases List.mem_append.mp hl with hl | hl
  · obtain ⟨line, hline, rfl⟩ := List.mem_map.mp hl
    exact (List.mem_append.mp hc).elim (hstar c) ((h line hline).oneLine c)
  · rw [List.mem_singleton.mp hl] at hc
    exact hclosing c hc

/-- **Decoration is transparent**: lines that do not begin like decoration declare the same in a
comment as they do by themselves, and are refused in the one exactly if they are in the other. -/
theorem declarations_decorated {ls : List Text} (h : ∀ l ∈ ls, Bare l) (ds : List Declaration) :
    (declarations (decorated ls)).value = .ok ds ↔
      (declarations (['\n'].intercalate ls)).value = .ok ds := by
  refine declarations_congr ?_ ds
  rw [decorated, written_intercalate (oneLine_of_mem_decoratedLines h),
    written_intercalate fun l hl => (h l hl).oneLine, written_decoratedLines h]

/-- A blank line, and a line that ends like the comment itself. -/
theorem declarations_decorated_of_closing :
    (declarations (decorated ["@param int $n".toList, [], "  how many */".toList])).value
      = .ok [⟨['n'], true, some (.primitive .int), none, false⟩] := by
  have hbare : ∀ l ∈ ["@param int $n".toList, [], "  how many */".toList], Bare l := by
    have hparam : Bare "@param int $n".toList :=
      ⟨forall_mem_of_all (by decide), by decide, by decide⟩
    have hnone : Bare [] := ⟨nofun, by decide, by decide⟩
    have hclosing : Bare "  how many */".toList :=
      ⟨forall_mem_of_all (by decide), by decide, by decide⟩
    simp only [List.forall_mem_cons]
    exact ⟨hparam, hnone, hclosing, nofun⟩
  exact (declarations_decorated hbare _).mpr (by decide +kernel)

end Docblock

end ViewContract
