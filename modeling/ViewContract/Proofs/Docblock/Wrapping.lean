/-
ViewContract.Proofs.Docblock.Wrapping — a line may be broken at a space.

A line that opens no tag goes on with the tag before it, and is put behind that with one space
between. So a tag can be wrapped wherever a space stands in it, and its text comes out as it was.
What this needs is that the second part does not read as something else by itself (a tag, or
decoration), and that the first part does not end as a comment does:

  §1 indentation is nothing (`written_indented`).
  §2 the parts of a line are freed of decoration each by itself (`stripDecoration_joined`).
  §3 the tags of the parts are those of the line (`contents_wrapped`).
  §4 whole bodies (`declarations_wrapped`).
-/
import ViewContract.Proofs.Docblock.Decoration

namespace ViewContract

open Text

namespace Docblock

/-! ## 1. Indentation -/

/-- A blank at the start of the line that is being read leaves the written lines as they are. -/
theorem written_linesFrom_blank {c : Char} (hc : isBlank c = true) (t line : Text) :
    written (linesFrom (line ++ [c]) t) = written (linesFrom line t) := by
  have hstrip : ∀ line : Text,
      stripDecoration (line ++ [c]).reverse = stripDecoration line.reverse := by
    intro line
    rw [List.reverse_append, List.reverse_singleton, List.singleton_append, stripDecoration,
      trim_cons hc]
    rfl
  induction t generalizing line with
  | nil =>
    have hend : ∀ line : Text, written (linesFrom line []) = written [line.reverse] := by
      intro line
      cases line with
      | nil => rfl
      | cons d line => simp [linesFrom]
    rw [hend, hend, written_cons, written_cons, hstrip]
  | cons d t ih =>
    rw [linesFrom, linesFrom]
    split
    · rw [written_cons, written_cons, hstrip]
    · exact ih (d :: line)

/-- A body with a blank in front has the same written lines. The blank may be the first half of a
line break. -/
theorem written_cons_blank {c : Char} (hc : isBlank c = true) (t : Text) :
    written (lines (c :: t)) = written (lines t) := by
  have hplain : written (linesFrom [] (c :: mergeReturns t)) = written (lines t) := by
    rw [linesFrom]
    split
    · rw [written_cons]
      rfl
    · exact written_linesFrom_blank hc _ []
  by_cases hpair : ∃ rest, c = '\r' ∧ t = '\n' :: rest
  · obtain ⟨rest, rfl, rfl⟩ := hpair
    rw [lines, lines, mergeReturns, mergeReturns_cons (by decide)]
  · rw [lines, mergeReturns.eq_3 _ _ fun rest hreturn hfeed => hpair ⟨rest, hreturn, hfeed⟩]
    exact hplain

theorem written_indented {indentation : Text} (h : ∀ c ∈ indentation, isBlank c = true)
    (t : Text) : written (lines (indentation ++ t)) = written (lines t) := by
  induction indentation with
  | nil => rfl
  | cons c indentation ih =>
    rw [List.forall_mem_cons] at h
    rw [List.cons_append, written_cons_blank h.1, ih h.2]

/-! ## 2. The parts of a line -/

/-- A text that may be broken between its two parts: none of them is blank there, the first does
not end as a comment does, and the second begins neither like a tag nor like decoration. -/
structure Breakable (before after : Text) : Prop where
  lastSolid : ∃ c, before.getLast? = some c ∧ isBlank c = false
  firstSolid : ∃ c, after.head? = some c ∧ isBlank c = false
  noClosing : ¬ "*/".toList <:+ before
  noTag : ∀ c rest, after = '@' :: c :: rest → c.isAlpha = false
  noStar : after.head? ≠ some '*'
  noOpening : ¬ "/**".toList <+: after

/-- It depends on the line alone where a text may be broken. -/
theorem Breakable.line {before after left right : Text} (h : Breakable before after)
    (hbefore : left <:+ before) (hleft : left ≠ []) (hafter : right <+: after)
    (hright : right ≠ []) : Breakable left right := by
  obtain ⟨start, rfl⟩ := hbefore
  obtain ⟨rest, rfl⟩ := hafter
  have hlast : (start ++ left).getLast? = left.getLast? := List.getLast?_append_of_ne_nil _ hleft
  have hfirst : (right ++ rest).head? = right.head? := List.head?_append_of_ne_nil _ hright
  refine ⟨?_, ?_, ?_, ?_, ?_, ?_⟩
  · rw [← hlast]
    exact h.lastSolid
  · rw [← hfirst]
    exact h.firstSolid
  · intro hclosing
    exact h.noClosing (hclosing.trans (List.suffix_append start left))
  · rintro c others rfl
    exact h.noTag c (others ++ rest) rfl
  · rw [← hfirst]
    exact h.noStar
  · intro hopening
    exact h.noOpening (hopening.trans (List.prefix_append right rest))

/-- Two parts of a line with a space between them, unless the first is empty. -/
def joined (left right : Text) : Text :=
  if left = [] then right else left ++ ' ' :: right

theorem trim_joined {left right : Text} (hleft : left.getLast?.all (!isBlank ·) = true)
    {d : Char} (hfirst : right.head? = some d) (hd : isBlank d = false) :
    trim (left ++ ' ' :: right) = joined (trim left) (trim right) := by
  cases hlast : left.getLast? with
  | none =>
    obtain rfl := List.getLast?_eq_none_iff.mp hlast
    rw [List.nil_append, trim_cons (by decide)]
    rfl
  | some c =>
    rw [hlast] at hleft
    obtain ⟨hsome, before, hcut, hbefore⟩ := exists_trim_of_getLast? hlast (by simpa using hleft)
    obtain ⟨hhead, after, hcut', hafter⟩ := exists_trim_of_head? hfirst hd
    obtain ⟨-, -, -, -, -, hstart, -⟩ := exists_trim left
    obtain ⟨-, -, -, -, -, -, hend⟩ := exists_trim right
    have hwhole : left ++ ' ' :: right = before ++ (trim left ++ ' ' :: trim right) ++ after :=
      calc left ++ ' ' :: right
        _ = (before ++ trim left) ++ ' ' :: (trim right ++ after) := by rw [← hcut, ← hcut']
        _ = before ++ (trim left ++ ' ' :: trim right) ++ after := by simp
    rw [hwhole, joined, if_neg hsome]
    refine trim_append hbefore hafter ?_ ?_
    · rwa [List.head?_append_of_ne_nil _ hsome]
    · have hright : trim right ≠ [] := by
        intro hnone
        rw [hnone] at hhead
        cases hhead
      rwa [List.getLast?_append_of_ne_nil _ (List.cons_ne_nil _ _),
        List.getLast?_cons_of_ne_nil hright]

/-- What is cut off the start ends before a character that it does not have. -/
theorem dropLead_append {lead : Text} {c : Char} (hc : c ∉ lead) (t rest : Text) :
    dropLead lead (t ++ c :: rest) = dropLead lead t ++ c :: rest := by
  have hcut : lead.isPrefixOf? (t ++ c :: rest)
      = (lead.isPrefixOf? t).map (· ++ c :: rest) := by
    induction lead generalizing t with
    | nil => rfl
    | cons d lead ih =>
      rw [List.mem_cons, not_or] at hc
      cases t with
      | nil => simp [List.isPrefixOf?, Ne.symm hc.1]
      | cons e t =>
        rw [List.cons_append, List.isPrefixOf?, List.isPrefixOf?]
        split
        · exact ih hc.2 t
        · rfl
  rw [dropLead, dropLead, hcut]
  cases lead.isPrefixOf? t <;> rfl

theorem dropLead_suffix (lead t : Text) : dropLead lead t <:+ t := by
  rw [dropLead]
  cases hcut : lead.isPrefixOf? t with
  | none => exact List.suffix_refl t
  | some rest => exact ⟨lead, List.append_eq_of_isPrefixOf?_eq_some hcut⟩

/-- Cutting off the start leaves an end that is not blank. -/
theorem solid_dropLead {t : Text} (lead : Text) (h : t.getLast?.all (!isBlank ·) = true) :
    (dropLead lead t).getLast?.all (!isBlank ·) = true := by
  obtain ⟨cut, hcut⟩ := dropLead_suffix lead t
  cases hleft : dropLead lead t with
  | nil => rfl
  | cons c rest =>
    rw [hleft] at hcut
    rwa [← hcut, List.getLast?_append_of_ne_nil _ (List.cons_ne_nil c rest)] at h

/-- The second part by itself loses only what ends it. -/
theorem exists_stripDecoration_right {left right : Text} (h : Breakable left right) :
    ∃ d, (dropTail "*/".toList (trim right)).head? = some d ∧ isBlank d = false ∧ d ≠ '*' ∧
      stripDecoration right = trim (dropTail "*/".toList (trim right)) := by
  obtain ⟨d, hfirst, hd⟩ := h.firstSolid
  obtain ⟨hhead, after, hcut, -⟩ := exists_trim_of_head? hfirst hd
  have hstar : d ≠ '*' := by
    rintro rfl
    exact h.noStar hfirst
  refine ⟨d, ?_, hd, hstar, stripDecoration_tail ?_ ?_⟩
  · by_cases hclosing : "*/".toList <:+ trim right
    · obtain ⟨inner, hinner⟩ := hclosing
      rw [← hinner] at hhead
      rw [← hinner, dropTail_append_self]
      cases inner with
      | nil => exact absurd (Option.some.inj hhead).symm hstar
      | cons e inner => exact hhead
    · rwa [dropTail_of_not_suffix hclosing]
  · rw [hhead]
    intro hsame
    exact hstar (Option.some.inj hsame)
  · intro hopening
    refine h.noOpening (hopening.trans ?_)
    exact ⟨after, hcut.symm⟩

/-- The parts of a line are freed of decoration each by itself. -/
theorem stripDecoration_joined {left right : Text} (h : Breakable left right) :
    stripDecoration (left ++ ' ' :: right)
      = joined (stripDecoration left) (stripDecoration right) := by
  obtain ⟨c, hlast, hc⟩ := h.lastSolid
  obtain ⟨d, hfirst, hd, hstar, hright⟩ := exists_stripDecoration_right h
  obtain ⟨e, hhead, he⟩ := h.firstSolid
  obtain ⟨hsome, start, hcut, -⟩ := exists_trim_of_getLast? hlast hc
  obtain ⟨-, -, -, -, -, -, hsolid⟩ := exists_trim left
  have hopened := solid_dropLead "/**".toList hsolid
  -- the end of the line is that of its second part, and the first part has no end of its own
  have hclosing : dropTail "*/".toList (dropLead "/**".toList (trim left) ++ ' ' :: trim right)
      = dropLead "/**".toList (trim left) ++ ' ' :: dropTail "*/".toList (trim right) := by
    have hspace : ∀ c, (dropLead "/**".toList (trim left) ++ [' ']).getLast? = some c →
        c ∉ "*/".toList := by
      intro c hc
      rw [List.getLast?_concat] at hc
      rw [← Option.some.inj hc]
      decide
    simpa using dropTail_append (t := trim right) hspace
  have hopen : dropTail "*/".toList (dropLead "/**".toList (trim left))
      = dropLead "/**".toList (trim left) := by
    refine dropTail_of_not_suffix ?_
    intro hsuffix
    exact h.noClosing ((hsuffix.trans (dropLead_suffix _ _)).trans ⟨start, hcut.symm⟩)
  have hleft : stripDecoration left
      = trim (dropLead "*".toList (trim (dropLead "/**".toList (trim left)))) := by
    rw [stripDecoration, hopen]
  rw [hright, hleft, stripDecoration, trim_joined (by simp [hlast, hc]) hhead he, joined,
    if_neg hsome, dropLead_append (by decide), hclosing, trim_joined hopened hfirst hd]
  obtain ⟨hstart, -⟩ := exists_trim_of_head? hfirst hd
  by_cases hnone : trim (dropLead "/**".toList (trim left)) = []
  · have hkept : dropLead "*".toList (trim (dropTail "*/".toList (trim right)))
        = trim (dropTail "*/".toList (trim right)) := by
      obtain ⟨rest, hrest⟩ := List.head?_eq_some_iff.mp hstart
      rw [hrest]
      exact dropLead_of_ne (Ne.symm hstar)
    rw [hnone, joined, if_pos rfl, hkept, trim_trim]
    rfl
  · obtain ⟨-, -, -, -, -, -, hend⟩ := exists_trim (dropLead "/**".toList (trim left))
    rw [joined, if_neg hnone, dropLead_append (by decide),
      trim_joined (solid_dropLead _ hend) hstart hd, trim_trim]

/-! ## 3. The tags of the parts -/

theorem openTag?_eq_none {t : Text} (h : ∀ c rest, t = '@' :: c :: rest → c.isAlpha = false) :
    openTag? t = none := by
  unfold openTag?
  split
  · rename_i c rest
    rw [if_neg (by simp [h c rest rfl])]
  · rfl

/-- The second part opens no tag, and says something. -/
theorem openTag?_right {left right : Text} (h : Breakable left right) :
    openTag? (stripDecoration right) = none ∧ stripDecoration right ≠ [] := by
  obtain ⟨d, hfirst, hd, -, hright⟩ := exists_stripDecoration_right h
  obtain ⟨e, hhead, he⟩ := h.firstSolid
  obtain ⟨-, after, hcut, -⟩ := exists_trim_of_head? hhead he
  obtain ⟨hstart, after', hcut', -⟩ := exists_trim_of_head? hfirst hd
  have hprefix : trim (dropTail "*/".toList (trim right)) <+: right :=
    (List.IsPrefix.trans ⟨after', hcut'.symm⟩ (dropTail_isPrefix _ _)).trans ⟨after, hcut.symm⟩
  rw [hright]
  constructor
  · refine openTag?_eq_none ?_
    intro c rest htag
    obtain ⟨more, hmore⟩ := hprefix
    rw [htag] at hmore
    exact h.noTag c (rest ++ more) hmore.symm
  · intro hnone
    rw [hnone] at hstart
    cases hstart

/-- A line opens a tag by what stands in front of its first space. -/
theorem openTag?_append {left : Text} (hleft : left ≠ []) (right : Text) :
    openTag? (left ++ ' ' :: right)
      = (openTag? left).map fun found => (found.1, found.2 ++ ' ' :: right) := by
  match left with
  | [] => exact absurd rfl hleft
  | [c] =>
    by_cases hc : c = '@'
    · subst hc
      rfl
    · simp [openTag?, hc]
  | c :: d :: rest =>
    by_cases hc : c = '@'
    · subst hc
      by_cases hd : d.isAlpha = true
      · have hspace : (isWord ' ' || decide (' ' = '-')) = false := by decide
        simp only [List.cons_append, openTag?, if_pos hd, Option.map_some]
        rw [takeWhile_append_cons hspace, dropWhile_append_cons hspace]
      · simp [openTag?, hd]
    · simp [openTag?, hc]

/-- A line that opens no tag goes on with the line before it. -/
theorem contents_cons_cons {left right : Text} (hleft : left ≠ []) (hright : openTag? right = none)
    (ls : List Text) :
    contents (left :: right :: ls) = contents ((left ++ ' ' :: right) :: ls) := by
  rw [contents, contents, hright, contents, openTag?_append hleft]
  cases openTag? left <;> simp

/-- The two parts of a line say what the line says. -/
theorem contents_wrapped {left right : Text} (h : Breakable left right) (ls : List Text) :
    contents (written (left :: right :: ls))
      = contents (written ((left ++ ' ' :: right) :: ls)) := by
  obtain ⟨hopen, hsome⟩ := openTag?_right h
  have hjoined : joined (stripDecoration left) (stripDecoration right) ≠ [] := by
    rw [joined]
    split
    · exact hsome
    · simp
  rw [written_cons, written_cons, if_neg hsome, written_cons, stripDecoration_joined h,
    if_neg hjoined, joined]
  split
  · rfl
  · rename_i hleft
    exact contents_cons_cons hleft hopen _

theorem contents_congr {ls ls' : List Text} (h : contents ls = contents ls') (front : List Text) :
    contents (front ++ ls) = contents (front ++ ls') := by
  induction front with
  | nil => exact h
  | cons l front ih => rw [List.cons_append, List.cons_append, contents, contents, ih]

/-! ## 4. Whole bodies -/

/-- **Wrapping changes nothing**: a body declares the same, and is refused exactly if it was, when
a space in it becomes a line feed with any indentation behind. -/
theorem declarations_wrapped {before after indentation : Text} (h : Breakable before after)
    (hblank : ∀ c ∈ indentation, isBlank c = true) (ds : List Declaration) :
    (declarations (before ++ '\n' :: (indentation ++ after))).value = .ok ds ↔
      (declarations (before ++ ' ' :: after)).value = .ok ds := by
  obtain ⟨b, hlast, hb⟩ := h.lastSolid
  obtain ⟨d, hfirst, hd⟩ := h.firstSolid
  obtain ⟨ls, left, right, more, hleft, hbefore, hright, hafter, hlines, hlines', hmeet⟩ :=
    exists_lines_meet (c := ' ') hlast hfirst (not_isLineBreak_of_not_blank hb) (by decide)
      (not_isLineBreak_of_not_blank hd)
  have hbroken : written (lines (before ++ '\n' :: (indentation ++ after)))
      = written ls ++ written (left :: right :: more) := by
    rw [written_join, written_indented hblank, hlines, hlines', written_append, List.append_assoc,
      ← written_append]
    rfl
  refine declarations_of_contents (congrArg Prod.snd ?_) ds
  rw [hbroken, hmeet, written_append]
  exact contents_congr (contents_wrapped (h.line hbefore hleft hafter hright) more) _

/-- A break inside a type, below another tag. -/
theorem declarations_wrapped_of_shape :
    (declarations ("/**\n * @var int $n (default: 3)\n * @param array<int,".toList
        ++ '\n' :: ("\t ".toList ++ "string> $rows\n */".toList))).value
      = .ok [⟨['n'], false, some (.primitive .int), some (.int 3), false⟩,
          ⟨"rows".toList, true, some (.primitive .array), none, false⟩] := by
  have hbreakable : Breakable "/**\n * @var int $n (default: 3)\n * @param array<int,".toList
      "string> $rows\n */".toList := by
    refine ⟨⟨',', by decide, by decide⟩, ⟨'s', by decide, by decide⟩, by decide, ?_, by decide,
      by decide⟩
    intro c rest h
    cases h
  have hblank : ∀ c ∈ "\t ".toList, isBlank c = true := forall_mem_of_all (by decide)
  exact (declarations_wrapped hbreakable hblank _).mpr (by decide +kernel)

end Docblock

end ViewContract
