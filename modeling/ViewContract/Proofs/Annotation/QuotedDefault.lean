/-
ViewContract.Proofs.Annotation.QuotedDefault — annotation text in a quoted default.

A default between quotes can hold any text. The scan for parameter lists passes over quotes: it
finds the whole list, whatever is quoted in it. The scan for blocks knows no quotes, and a
parameter list that overlaps a block gives way to it. So a default that holds the text of a block
takes the place of the list it stands in (`extract_declaring`):

  §1 characters as they are written between quotes. No escape holds an at sign.
  §2 words as they are written between quotes. An opening or a closing word stands there exactly
     where it stands in the text itself (`exists_cut_of_written`).
  §3 the parameter list, which is found as a whole.
  §4 the blocks, each between the quotes.
-/
import ViewContract.Proofs.Annotation.Enclosed
import ViewContract.Proofs.Annotation.Stripping
import ViewContract.Proofs.Template.Quoted
import ViewContract.Proofs.Text.Lowercase

namespace ViewContract.Annotation

open ViewContract.Text
open ViewContract.Template (not_mem_quoted)

/-! ## 1. Characters between quotes -/

/-- Whether a character is one below the space or the delete character. -/
def isControl (c : Char) : Bool :=
  c.toNat < 0x20 || c.toNat = 0x7f

/-- Whether a character is written as an escape between quotes. -/
def isEscaped (c : Char) : Bool :=
  c = '\\' || c = '"' || isControl c

theorem quotedChar_of_not_escaped {c : Char} (h : isEscaped c = false) : quotedChar c = [c] := by
  simp only [isEscaped, isControl, Bool.or_eq_false_iff, decide_eq_false_iff_not] at h
  obtain ⟨⟨hslash, hquote⟩, hlow, hdelete⟩ := h
  have hcontrol : ∀ d : Char, d.toNat < 0x20 → c ≠ d := fun d hd heq => hlow (heq ▸ hd)
  rw [quotedChar, if_neg hslash, if_neg hquote, if_neg (hcontrol '\n' (by decide)),
    if_neg (hcontrol '\r' (by decide)), if_neg (hcontrol '\t' (by decide)),
    if_neg (by simp [hlow, hdelete])]

/-- An escape begins with a backslash and holds no at sign; that of a control character ends with
a letter or a digit. -/
theorem quotedChar_of_escaped {c : Char} (h : isEscaped c = true) :
    (∃ t, quotedChar c = '\\' :: t ∧ '@' ∉ quotedChar c) ∧ isWord c = false ∧
      mayFollow (quotedChar c).getLast? = !isControl c := by
  have hascii : c.toNat < 128 := by
    simp only [isEscaped, isControl, Bool.or_eq_true, decide_eq_true_eq] at h
    rcases h with (rfl | rfl) | h
    · decide
    · decide
    · omega
  have hall := forall_ascii (p := fun c => !isEscaped c || ((quotedChar c).head? = some '\\' &&
    !(quotedChar c).contains '@' && !isWord c && mayFollow (quotedChar c).getLast? = !isControl c))
    (by decide +kernel) hascii
  simp only [h, Bool.not_true, Bool.false_or, Bool.and_eq_true, decide_eq_true_eq,
    Bool.not_eq_true', List.contains_eq_mem, decide_eq_false_iff_not] at hall
  obtain ⟨⟨⟨hhead, hat⟩, hword⟩, hlast⟩ := hall
  obtain ⟨t, ht⟩ := List.head?_eq_some_iff.mp hhead
  exact ⟨⟨t, ht, hat⟩, hword, hlast⟩

/-- Whether an annotation may begin behind a character, as it is written between quotes. -/
theorem mayFollow_quotedChar (c : Char) :
    mayFollow (quotedChar c).getLast? = (mayFollow (some c) && !isControl c) := by
  cases h : isEscaped c with
  | true =>
    obtain ⟨_, hword, hlast⟩ := quotedChar_of_escaped h
    have hat : c ≠ '@' := fun hc => by rw [hc] at h; exact absurd h (by decide)
    rw [hlast, mayFollow, hword, decide_eq_true hat]
    rfl
  | false =>
    rw [quotedChar_of_not_escaped h]
    have hcontrol : isControl c = false := (Bool.or_eq_false_iff.mp h).2
    rw [hcontrol, Bool.not_false, Bool.and_true]
    rfl

/-! ## 2. Words between quotes -/

/-- A text as it is written between quotes, from behind the opening quote to the end of the
parameter list. -/
def written (t : Text) : Text :=
  t.flatMap quotedChar ++ ['"', ')']

theorem written_append (s t : Text) : written (s ++ t) = s.flatMap quotedChar ++ written t := by
  rw [written, written, List.flatMap_append, List.append_assoc]

theorem written_cons (c : Char) (t : Text) : written (c :: t) = quotedChar c ++ written t := by
  rw [written, written, List.flatMap_cons, List.append_assoc]

section words

variable {word : Text}

/-- A word of characters that are not escaped is written as it is. -/
theorem flatMap_quotedChar_eq_self (hword : ∀ c ∈ word, isEscaped c = false) :
    word.flatMap quotedChar = word := by
  induction word with
  | nil => rfl
  | cons c word ih =>
    rw [List.flatMap_cons, quotedChar_of_not_escaped (hword c List.mem_cons_self),
      ih fun d hd => hword d (List.mem_cons_of_mem c hd)]
    rfl

/-- What begins with such a word once it is written began with it before. -/
theorem exists_after_of_written {s v : Text} (hword : ∀ c ∈ word, isEscaped c = false)
    (h : written s = word ++ v) : ∃ after, s = word ++ after ∧ v = written after := by
  induction word generalizing s with
  | nil => exact ⟨s, rfl, h.symm⟩
  | cons d word ih =>
    have hd := hword d List.mem_cons_self
    cases s with
    | nil =>
      obtain rfl : '"' = d := (List.cons.inj h).1
      exact absurd hd (by decide)
    | cons c s =>
      rw [written_cons, List.cons_append] at h
      cases hc : isEscaped c with
      | true =>
        obtain ⟨⟨t, ht, _⟩, _⟩ := quotedChar_of_escaped hc
        rw [ht] at h
        obtain rfl : '\\' = d := (List.cons.inj h).1
        exact absurd hd (by decide)
      | false =>
        rw [quotedChar_of_not_escaped hc] at h
        obtain ⟨rfl, hrest⟩ := List.cons.inj h
        obtain ⟨after, rfl, rfl⟩ := ih (fun e he => hword e (List.mem_cons_of_mem c he)) hrest
        exact ⟨after, rfl, rfl⟩

theorem eq_at_of_mem_quotedChar {c : Char} (h : '@' ∈ quotedChar c) : quotedChar c = ['@'] := by
  cases hc : isEscaped c with
  | true => exact absurd h (quotedChar_of_escaped hc).1.choose_spec.2
  | false =>
    rw [quotedChar_of_not_escaped hc] at h ⊢
    rw [List.mem_singleton.mp h]

/-- A word that begins with an at sign stands in a written text only where it stands in the
text. -/
theorem exists_cut_of_written {s u v : Text} (hat : word.head? = some '@')
    (hword : ∀ c ∈ word, isEscaped c = false) (h : written s = u ++ (word ++ v)) :
    ∃ before after, s = before ++ word ++ after ∧ u = before.flatMap quotedChar ∧
      v = written after := by
  induction s generalizing u with
  | nil =>
    have hmem : '@' ∈ written [] := by
      rw [h]
      exact List.mem_append_right u (List.mem_append_left v (List.mem_of_mem_head? hat))
    exact absurd hmem (by decide)
  | cons c s ih =>
    -- behind the first character everything is as in the rest
    have hlater : ∀ w, u = quotedChar c ++ w → written s = w ++ (word ++ v) →
        ∃ before after, c :: s = before ++ word ++ after ∧
          u = before.flatMap quotedChar ∧ v = written after := by
      rintro w rfl hw
      obtain ⟨before, after, rfl, rfl, rfl⟩ := ih hw
      exact ⟨c :: before, after, rfl, rfl, rfl⟩
    have hcut := h
    rw [written_cons] at hcut
    rcases List.append_eq_append_iff.mp hcut with ⟨w, hu, hw⟩ | ⟨x, hx, hw⟩
    · exact hlater w hu hw
    · cases x with
      | nil => exact hlater [] (by simpa using hx.symm) (by simpa using hw.symm)
      | cons d x =>
        obtain ⟨rest, rfl⟩ := List.head?_eq_some_iff.mp hat
        obtain ⟨rfl, _⟩ := List.cons.inj hw
        have hone := eq_at_of_mem_quotedChar (c := c) (by rw [hx]; simp)
        obtain rfl : u = [] := by
          have hlength := congrArg List.length (hone.symm.trans hx)
          simp only [List.length_append, List.length_cons, List.length_nil] at hlength
          exact List.length_eq_zero_iff.mp (by omega)
        obtain ⟨after, hs, hv⟩ := exists_after_of_written hword h
        exact ⟨[], after, hs, rfl, hv⟩

end words

/-! ## 3. The parameter list -/

/-- What comes in front of the default. -/
def lead : Text := "@expects(string $x = ".toList

/-- A parameter list that declares a string with a default. -/
def declaring (s : Text) : Text :=
  lead ++ quoted s ++ [')']

/-- A parameter up to its default. -/
def parameterLead : Text := "string $x = ".toList

/-- A parameter with a default. -/
def parameter (s : Text) : Text :=
  parameterLead ++ quoted s

/-- The annotation that a parameter list is as a whole. -/
def whole (s : Text) : Annotation where
  form := .expression
  body := parameter s
  start := 0
  stop := (declaring s).length
  text := declaring s

theorem declaring_eq (s : Text) : declaring s = lead ++ '"' :: written s := by
  simp [declaring, quoted, written]

/-- A parameter can stand between parentheses, whatever is quoted in it. -/
theorem enclosed_parameter (s : Text) : Enclosed (fun _ => True) (parameter s) := by
  have hfeed : '\n' ∉ s.flatMap quotedChar := fun h =>
    not_mem_quoted (.inl rfl) s (List.mem_append_left _ (List.mem_cons_of_mem _ h))
  have hinside : Interior '"' (· ≠ '\n') (fun _ => True) (s.flatMap quotedChar) :=
    (Signature.stringInterior_quoted s).mono (fun c hc _ h => hfeed (h ▸ hc)) fun _ _ _ => trivial
  exact enclosed_of_ordinary (forall_mem_of_all (by decide)) (.quoted (.inr rfl) hinside .nil)

theorem declaring_eq_opener (s : Text) :
    declaring s = opener ++ '(' :: (parameter s ++ [')']) := by
  have hlead : lead = opener ++ '(' :: parameterLead := by decide
  simp only [declaring, parameter, hlead, List.append_assoc, List.cons_append]

theorem parameterList_parameter (s : Text) : parameterList 0 (parameter s) = whole s := by
  have htext : opener ++ '(' :: parameter s ++ [')'] = declaring s := by
    rw [declaring_eq_opener, List.append_assoc, List.cons_append]
  rw [parameterList, whole, htext, Nat.zero_add]

/-- The parameter list is found as a whole, whatever is quoted in it. -/
theorem expressions_declaring (s : Text) : expressions (declaring s) = [whole s] := by
  have h := @expressions_enclosed _ [] _ [] List.not_mem_nil rfl (enclosed_parameter s)
    List.not_mem_nil
  rw [List.nil_append, List.append_nil, List.length_nil, parameterList_parameter] at h
  exact h

/-! ## 4. The blocks -/

/-- A text that holds the text of a block, such that it is one between quotes: the character in
front of it is not written with a letter or a digit at its end, and only blanks count as spacing
behind the opening word, since a tab is written as an escape. -/
def HoldsBlock (s : Text) : Prop :=
  ∃ before rest, s = before ++ opener ++ rest ∧
    (∀ c, before.getLast? = some c → mayFollow (some c) = true ∧ isControl c = false) ∧
    (rest.head?.any isWord = false ∧ (rest.dropWhile (· = ' ')).head? ≠ some '(') ∧
    ∃ body after, ClosesAt body after rest

theorem quotedChar_ne_nil (c : Char) : quotedChar c ≠ [] := by
  cases hc : isEscaped c with
  | true =>
    obtain ⟨⟨t, ht, _⟩, _⟩ := quotedChar_of_escaped hc
    rw [ht]
    exact List.cons_ne_nil _ _
  | false =>
    rw [quotedChar_of_not_escaped hc]
    exact List.cons_ne_nil _ _

/-- Where an annotation may begin between the quotes. -/
theorem mayFollow_between (t before : Text) :
    mayFollow (t ++ '"' :: before.flatMap quotedChar).getLast? = true ↔
      ∀ c, before.getLast? = some c → mayFollow (some c) = true ∧ isControl c = false := by
  rcases List.eq_nil_or_concat before with rfl | ⟨before, c, rfl⟩
  · rw [List.flatMap_nil, List.getLast?_concat]
    exact iff_of_true (by decide) nofun
  · have hlast : (t ++ '"' :: (before.concat c).flatMap quotedChar).getLast?
        = (quotedChar c).getLast? := by
      rw [List.concat_eq_append, List.flatMap_append, List.flatMap_singleton, ← List.cons_append,
        ← List.append_assoc, List.getLast?_append_of_ne_nil _ (quotedChar_ne_nil c)]
    rw [hlast, mayFollow_quotedChar, List.concat_eq_append, List.getLast?_concat]
    simp

theorem head?_written (t : Text) : (written t).head?.any isWord = t.head?.any isWord := by
  cases t with
  | nil => decide
  | cons c t =>
    rw [written_cons]
    cases hc : isEscaped c with
    | true =>
      obtain ⟨⟨escape, hescape, _⟩, hword, _⟩ := quotedChar_of_escaped hc
      rw [hescape, List.cons_append, List.head?_cons, List.head?_cons, Option.any_some,
        Option.any_some, hword]
      decide
    | false =>
      rw [quotedChar_of_not_escaped hc]
      rfl

/-- Only blanks are spacing in a written text. -/
theorem head?_dropSpaces_written (t : Text) : (dropSpaces (written t)).head? = some '(' ↔
    (t.dropWhile (· = ' ')).head? = some '(' := by
  induction t with
  | nil => decide
  | cons c t ih =>
    rw [written_cons]
    by_cases hblank : c = ' '
    · rw [hblank]
      exact ih
    · rw [List.dropWhile_cons_of_neg (by simpa using hblank), List.head?_cons]
      cases hc : isEscaped c with
      | true =>
        obtain ⟨⟨escape, hescape, _⟩, _⟩ := quotedChar_of_escaped hc
        have hparen : c ≠ '(' := fun h => by rw [h] at hc; exact absurd hc (by decide)
        rw [hescape]
        exact iff_of_false (fun h => absurd (Option.some.inj h) (by decide)) fun h =>
          hparen (Option.some.inj h)
      | false =>
        have htab : c ≠ '\t' := fun h => by rw [h] at hc; exact absurd hc (by decide)
        rw [quotedChar_of_not_escaped hc, dropSpaces, List.cons_append,
          List.dropWhile_cons_of_neg (by simp [hblank, htab]), List.head?_cons]

theorem opensBlock_written {t : Text} : OpensBlock (written t) ↔
    t.head?.any isWord = false ∧ (t.dropWhile (· = ' ')).head? ≠ some '(' := by
  rw [OpensBlock, head?_written, ne_eq, head?_dropSpaces_written]

/-- An opening word with room for a block stands between the quotes. -/
theorem opener_between {s u rest : Text} (h : declaring s = u ++ (opener ++ rest))
    (hopens : OpensBlock rest) : ∃ before after, s = before ++ opener ++ after ∧
      u = lead ++ '"' :: before.flatMap quotedChar ∧ rest = written after := by
  have hcut : (lead ++ ['"']) ++ written s = u ++ (opener ++ rest) := by
    rw [← h, declaring_eq, List.append_assoc, List.singleton_append]
  have hlater : ∀ w, u = (lead ++ ['"']) ++ w → written s = w ++ (opener ++ rest) →
      ∃ before after, s = before ++ opener ++ after ∧
        u = lead ++ '"' :: before.flatMap quotedChar ∧ rest = written after := by
    rintro w rfl hw
    obtain ⟨before, after, rfl, rfl, rfl⟩ :=
      exists_cut_of_written (by decide) (forall_mem_of_all (by decide)) hw
    exact ⟨before, after, rfl, by simp, rfl⟩
  rcases List.append_eq_append_iff.mp hcut with ⟨w, hu, hw⟩ | ⟨x, hx, hw⟩
  · exact hlater w hu hw
  · cases x with
    | nil => exact hlater [] (by simpa using hx.symm) (by simpa using hw.symm)
    | cons c x =>
      -- the only at sign in front of the quote begins the source, and a parenthesis follows the
      -- word
      obtain rfl : '@' = c := (List.cons.inj hw).1
      cases u with
      | cons d u =>
        have htail : (lead ++ ['"']).tail = u ++ '@' :: x := congrArg List.tail hx
        have hmem : '@' ∈ (lead ++ ['"']).tail := by
          rw [htail]
          simp
        exact absurd hmem (by decide)
      | nil =>
        rw [declaring_eq_opener, List.nil_append] at h
        rw [← List.append_cancel_left h] at hopens
        exact absurd rfl hopens.2

/-- A block in the source is one that the text holds, and lies between the quotes. -/
theorem between_of_foundIn {s : Text} {a : Annotation} (h : FoundIn blockHere? (declaring s) a) :
    HoldsBlock s ∧ lead.length < a.start ∧ a.stop + 2 ≤ (declaring s).length := by
  obtain ⟨u, v, hsource, hmay, hhere⟩ := h
  obtain ⟨after, _, htext, rfl, hword, _, hopens, hstart, hstop⟩ := blockHere?_eq_some hhere
  have hcut : declaring s = u ++ (opener ++ (a.body ++ (blockCloser ++ after))) := by
    rw [hsource, htext]
    simp only [List.append_assoc]
  rw [List.append_assoc] at hopens
  obtain ⟨before, rest, rfl, rfl, hrest⟩ := opener_between hcut hopens
  obtain ⟨body, last, rfl, -, rfl⟩ := @exists_cut_of_written blockCloser _ _ _ (by decide)
    (forall_mem_of_all (by decide)) hrest.symm
  refine ⟨⟨before, body ++ blockCloser ++ last, rfl, (mayFollow_between _ _).mp hmay,
    opensBlock_written.mp (hrest ▸ hopens), body, last, rfl, (head?_written last) ▸ hword⟩, ?_, ?_⟩
  · rw [hstart, List.length_append, List.length_cons]
    omega
  · have hlength : 2 ≤ (written last).length := by
      rw [written, List.length_append]
      exact Nat.le_add_left _ _
    rw [hstop, hsource]
    simp only [List.length_append]
    omega

/-- There are blocks in the source exactly if the text holds one. -/
theorem blocks_declaring_eq_nil_iff (s : Text) : blocks (declaring s) = [] ↔ ¬ HoldsBlock s := by
  rw [blocks, scanFrom_eq_nil_iff blockHere?_findsPieces]
  constructor
  · rintro hnone ⟨before, rest, rfl, hbefore, hopens, body, after, rfl, hword⟩
    have hcut : declaring (before ++ opener ++ (body ++ blockCloser ++ after))
        = (lead ++ '"' :: before.flatMap quotedChar)
          ++ (opener ++ written (body ++ blockCloser ++ after)) := by
      rw [declaring_eq, List.append_assoc before, written_append, written_append,
        @flatMap_quotedChar_eq_self opener (forall_mem_of_all (by decide))]
      simp only [List.append_assoc, List.cons_append]
    have hcloses : ClosesAt (body.flatMap quotedChar) (written after)
        (written (body ++ blockCloser ++ after)) := by
      refine ⟨?_, (head?_written after).trans hword⟩
      rw [List.append_assoc, written_append, written_append,
        @flatMap_quotedChar_eq_self blockCloser (forall_mem_of_all (by decide)),
        List.append_assoc]
    have hsome := blockHere?_isSome (lead ++ '"' :: before.flatMap quotedChar).length
      (opensBlock_written.mpr hopens) hcloses
    rw [hnone _ _ hcut ((mayFollow_between _ _).mpr hbefore)] at hsome
    cases hsome
  · intro hnone u v hsource hmay
    cases hhere : blockHere? u.length v with
    | none => rfl
    | some a => exact absurd (between_of_foundIn ⟨u, v, hsource, hmay, hhere⟩).1 hnone

/-- The parameter list gives way to any block. -/
theorem freeExpressions_declaring (s : Text) : freeExpressions (declaring s)
    = if blocks (declaring s) = [] then [whole s] else [] := by
  rw [freeExpressions, expressions_declaring]
  split
  · rename_i hnone
    rw [hnone]
    rfl
  · rename_i hsome
    obtain ⟨b, hb⟩ := List.exists_mem_of_ne_nil _ hsome
    obtain ⟨_, _, hstop⟩ := between_of_foundIn (foundIn_of_mem_scanFrom hb)
    have hlt := (wellPlaced_of_mem_blocks hb).1.start_lt_stop
    have hoverlaps : (whole s).overlaps b = true := by
      show (decide (0 < b.stop) && decide (b.start < (declaring s).length)) = true
      rw [Bool.and_eq_true, decide_eq_true_eq, decide_eq_true_eq]
      omega
    have hany : (blocks (declaring s)).any (whole s).overlaps = true :=
      List.any_eq_true.mpr ⟨b, hb, hoverlaps⟩
    rw [List.filter_cons, hany]
    rfl

/-- **A quoted default is taken for an annotation exactly if it holds a block**: the scan for
parameter lists finds one, which is the whole source. It is what is extracted unless the default
holds the text of a block. Then only blocks are extracted, all of them between the quotes. -/
theorem extract_declaring (s : Text) :
    expressions (declaring s) = [whole s] ∧
      ((extract (declaring s)).value = [whole s] ↔ ¬ HoldsBlock s) ∧
      (HoldsBlock s → (extract (declaring s)).value ≠ [] ∧
        ∀ a ∈ (extract (declaring s)).value, a.form = .block ∧
          lead.length < a.start ∧ a.stop + 2 ≤ (declaring s).length) := by
  have hblocks : HoldsBlock s → (extract (declaring s)).value ≠ [] ∧
      ∀ a ∈ (extract (declaring s)).value, a.form = .block ∧
        lead.length < a.start ∧ a.stop + 2 ≤ (declaring s).length := by
    intro hholds
    have hsome : blocks (declaring s) ≠ [] := fun h =>
      (blocks_declaring_eq_nil_iff s).mp h hholds
    have hmem : ∀ a, a ∈ (extract (declaring s)).value ↔ a ∈ blocks (declaring s) := by
      intro a
      rw [mem_extract, freeExpressions_declaring, if_neg hsome]
      simp
    obtain ⟨b, hb⟩ := List.exists_mem_of_ne_nil _ hsome
    refine ⟨List.ne_nil_of_mem ((hmem b).mpr hb), fun a ha => ?_⟩
    have hblock := (hmem a).mp ha
    exact ⟨(wellPlaced_of_mem_blocks hblock).2,
      (between_of_foundIn (foundIn_of_mem_scanFrom hblock)).2⟩
  refine ⟨expressions_declaring s, ⟨fun hwhole hholds => ?_, fun hnone => ?_⟩, hblocks⟩
  · have hform := ((hblocks hholds).2 (whole s) (by rw [hwhole]; exact List.mem_singleton_self _)).1
    exact nomatch hform
  · have hnil := (blocks_declaring_eq_nil_iff s).mpr hnone
    rw [extract_value, freeExpressions_declaring, if_pos hnil, hnil]
    rfl

/-- The text of an empty block. -/
def emptyBlock : Text := "@expects @endexpects".toList

/-- It is extracted from the default, and the parameter list is not. -/
theorem extract_declaring_emptyBlock : (extract (declaring emptyBlock)).value
    = [{ form := .block, body := [' '], start := 22, stop := 42, text := emptyBlock }] := by
  decide +kernel

theorem extract_declaring_of_emptyBlock : HoldsBlock emptyBlock ∧
    ∀ a ∈ (extract (declaring emptyBlock)).value, a.form = .block := by
  obtain ⟨_, _, hblocks⟩ := extract_declaring emptyBlock
  have hholds : HoldsBlock emptyBlock :=
    ⟨[], ' ' :: blockCloser, by decide, nofun, by decide, [' '], [], rfl, rfl⟩
  exact ⟨hholds, fun a ha => ((hblocks hholds).2 a ha).1⟩

/-- A quoted default can take the place of the parameter list it stands in. -/
theorem not_forall_extract_declaring :
    ¬ ∀ s, (extract (declaring s)).value = [whole s] := by
  intro h
  have hblock := extract_declaring_emptyBlock
  rw [h emptyBlock] at hblock
  exact nomatch congrArg (List.map Annotation.form) hblock

end ViewContract.Annotation
