/-
ViewContract.Proofs.Signature.Expressible — every string can be written as a default.

Both spellings of a text are one token of a parameter list, and the token stands for the text.
Each code point is one block of the quoted text, so both round trips are folds over the blocks:

  §1 code points between double quotes. A block is what it is for a character
     (`quotedChar_escape`), since no surrogate is escaped.
  §2 code points between single quotes.
  §3 reading as code points is reading, with surrogates shown (`unquotePoints_shown`).
  §4 the two tokens (`strings_expressible`).
-/
import ViewContract.Proofs.Signature.Lexeme
import ViewContract.Signature.CodePoint

namespace ViewContract.Signature

open ViewContract.Text
open ViewContract.Template (quotable_flatMap quotable_point le_of_mem_quotedPoints
  map_shown_map_char shown_quotedPoints quotedPoints_map_char)

variable {position : Option Nat}

/-! ## 1. Double quotes -/

/-- The code points that an escape covers are passed over. -/
theorem unescapeDoublePointsFrom_covered (ps rest : List CodePoint) :
    unescapeDoublePointsFrom position ps.length (ps ++ rest)
      = unescapeDoublePointsFrom position 0 rest := by
  induction ps with
  | nil => rfl
  | cons p ps ih => rw [List.length_cons, List.cons_append, unescapeDoublePointsFrom, ih]

/-- Reading undoes the quoting of one code point. -/
theorem unescapeDoublePointsFrom_point (p : CodePoint) (rest : List CodePoint) :
    unescapeDoublePointsFrom position 0 (quotedPoint p ++ rest)
      = (p :: ·) <$> unescapeDoublePointsFrom position 0 rest := by
  have hplain : p ≠ .char '\\' → unescapeDoublePointsFrom position 0 ([p] ++ rest)
      = (p :: ·) <$> unescapeDoublePointsFrom position 0 rest := by
    intro hp
    rw [List.singleton_append, unescapeDoublePointsFrom, if_pos hp]
  cases p with
  | surrogate index => exact hplain nofun
  | char c =>
    rcases quotedChar_escape c with ⟨hself, hslash⟩ | ⟨t, hescape, hread⟩
    · rw [quotedPoint, hself]
      exact hplain fun h => hslash (CodePoint.char.inj h)
    · have hhere : escape? ((t.map CodePoint.char ++ rest).map CodePoint.shown)
          = some (.char c (t.map CodePoint.char).length) := by
        rw [List.map_append, map_shown_map_char, List.length_map]
        exact hread _
      rw [quotedPoint, hescape, List.map_cons, List.cons_append, unescapeDoublePointsFrom,
        if_neg (by simp), hhere]
      simp only [unescapeDoublePointsFrom_covered]

/-- Code points between double quotes stand for themselves. -/
theorem unquotePoints_quotedPoints (ps : List CodePoint) :
    unquotePoints position (quotedPoints ps) = .ok ps := by
  have hinner : ((quotedPoints ps).drop 1).dropLast = ps.flatMap quotedPoint := by
    simp [quotedPoints]
  have hhead : (quotedPoints ps).head? ≠ some (.char '\'') := by simp [quotedPoints]
  rw [unquotePoints, if_neg hhead, hinner]
  clear hinner hhead
  induction ps with
  | nil => rfl
  | cons p ps ih =>
    rw [List.flatMap_cons, unescapeDoublePointsFrom_point, ih]
    rfl

theorem stringInterior_quotedPoints (ps : List CodePoint) :
    StringInterior '"' (ps.flatMap fun p => (quotedPoint p).map CodePoint.shown) := by
  refine stringInterior_of_quotable (quotable_flatMap quotable_point ps) fun hfeed => ?_
  have hmem : '\n' ∈ (quotedPoints ps).map CodePoint.shown := by
    rw [shown_quotedPoints]
    exact List.mem_append_left _ (List.mem_cons_of_mem _ hfeed)
  obtain ⟨p, hp, hshown⟩ := List.mem_map.mp hmem
  cases p with
  | char c =>
    obtain rfl : c = '\n' := hshown
    exact absurd (le_of_mem_quotedPoints hp) (by decide)
  | surrogate index => exact absurd hshown (by simp)

/-! ## 2. Single quotes -/

/-- Reading undoes the writing of one code point between single quotes. -/
theorem unescapeSinglePoints_point (p : CodePoint) (rest : List CodePoint) :
    unescapeSinglePoints (singleQuotedPoint p ++ rest) = p :: unescapeSinglePoints rest := by
  have hplain : p ≠ .char '\\' → unescapeSinglePoints ([p] ++ rest)
      = p :: unescapeSinglePoints rest := by
    intro hp
    rw [List.singleton_append, unescapeSinglePoints.eq_4 _ _ (fun _ h => absurd h hp)
      fun _ h => absurd h hp]
  cases p with
  | surrogate index => exact hplain nofun
  | char c =>
    by_cases hslash : c = '\\'
    · subst hslash
      rfl
    · by_cases hquote : c = '\''
      · subst hquote
        rfl
      · have hself : singleQuotedChar c = [c] := by simp [singleQuotedChar, hslash, hquote]
        rw [singleQuotedPoint, hself]
        exact hplain fun h => hslash (CodePoint.char.inj h)

/-- Code points between single quotes stand for themselves. -/
theorem unquotePoints_singleQuotedPoints (ps : List CodePoint) :
    unquotePoints position (singleQuotedPoints ps) = .ok ps := by
  have hinner : ((singleQuotedPoints ps).drop 1).dropLast = ps.flatMap singleQuotedPoint := by
    simp [singleQuotedPoints]
  have hhead : (singleQuotedPoints ps).head? = some (.char '\'') := rfl
  rw [unquotePoints, if_pos hhead, hinner]
  refine congrArg _ ?_
  clear hinner hhead
  induction ps with
  | nil => rfl
  | cons p ps ih => rw [List.flatMap_cons, unescapeSinglePoints_point, ih]

theorem stringInterior_singleQuotedPoint (p : CodePoint) :
    StringInterior '\'' ((singleQuotedPoint p).map CodePoint.shown) := by
  cases p with
  | surrogate index => exact .char (by simp) trivial .nil
  | char c =>
    rw [singleQuotedPoint, map_shown_map_char, singleQuotedChar]
    split
    · rename_i hc
      refine .escape ?_ .nil
      rintro rfl
      exact absurd hc (by decide)
    · rename_i hc
      have hne : c ≠ '\\' ∧ c ≠ '\'' := by simpa using hc
      exact .char hne.symm trivial .nil

theorem stringInterior_singleQuotedPoints (ps : List CodePoint) :
    StringInterior '\'' (ps.flatMap fun p => (singleQuotedPoint p).map CodePoint.shown) := by
  induction ps with
  | nil => exact .nil
  | cons p ps ih =>
    rw [List.flatMap_cons]
    exact (stringInterior_singleQuotedPoint p).append ih

theorem shown_singleQuotedPoints (ps : List CodePoint) :
    (singleQuotedPoints ps).map CodePoint.shown
      = '\'' :: ps.flatMap (fun p => (singleQuotedPoint p).map CodePoint.shown) ++ ['\''] := by
  simp [singleQuotedPoints, List.map_flatMap, CodePoint.shown]

theorem singleQuotedPoints_map_char (t : Text) :
    singleQuotedPoints (t.map .char) = (singleQuoted t).map .char := by
  simp [singleQuotedPoints, singleQuoted, List.flatMap_map, List.map_flatMap, singleQuotedPoint]

/-! ## 3. Reading as code points -/

theorem shown_eq_iff {p : CodePoint} {c : Char} (hc : c ≠ '\ufffd') :
    p.shown = c ↔ p = .char c := by
  cases p with
  | char d => simp
  | surrogate index => simpa using hc.symm

theorem shown_codePointOf (n : Nat) : (codePointOf n).shown = charOfCodePoint n := by
  rw [codePointOf, CodePoint.surrogate?]
  split
  · rename_i hn
    have hvalid : ¬ n.isValidChar := by
      simp only [Nat.isValidChar]
      omega
    rw [charOfCodePoint, if_neg hvalid]
    rfl
  · rfl

theorem unescapeSinglePoints_shown (ps : List CodePoint) :
    (unescapeSinglePoints ps).map CodePoint.shown = unescapeSingle (ps.map CodePoint.shown) := by
  fun_induction unescapeSinglePoints ps with
  | case1 => rfl
  | case2 rest ih => simp [unescapeSingle, ih]
  | case3 rest ih => simp [unescapeSingle, ih]
  | case4 p rest hslash hquote ih =>
    -- what is shown as a backslash or a quote is one
    have hnext : ∀ {c : Char} {t : Text}, c ≠ '\ufffd' → p.shown = '\\' →
        rest.map CodePoint.shown = c :: t → p = .char '\\' ∧ ∃ rest', rest = .char c :: rest' := by
      intro c t hc hp ht
      refine ⟨(shown_eq_iff (by decide)).mp hp, ?_⟩
      obtain ⟨q, rest', rfl, hq, -⟩ := List.map_eq_cons_iff.mp ht
      exact ⟨rest', by rw [(shown_eq_iff hc).mp hq]⟩
    rw [List.map_cons, List.map_cons, unescapeSingle.eq_4, ih]
    · intro t hp ht
      obtain ⟨hp, rest', hrest⟩ := hnext (by decide) hp ht
      exact hslash rest' hp hrest
    · intro t hp ht
      obtain ⟨hp, rest', hrest⟩ := hnext (by decide) hp ht
      exact hquote rest' hp hrest

/-- What is no escape begins with the character that stays. -/
theorem head?_of_escape?_plain {t : Text} {c : Char} (h : escape? t = some (.plain c)) :
    t.head? = some c := by
  simp only [escape?, Option.orElse_eq_some] at h
  rcases h with h | ⟨-, h | ⟨-, h | ⟨-, h⟩⟩⟩
  · exfalso
    rw [hexByte?.eq_def] at h
    split at h
    · dsimp only at h
      split at h <;> simp at h
    · cases h
  · exfalso
    rw [bracedCodePoint?.eq_def] at h
    split at h
    · dsimp only at h
      split at h
      · split at h <;> simp at h
      · cases h
    · cases h
  · exfalso
    rw [octalByte?] at h
    split at h <;> simp at h
  · obtain ⟨d, hd, hplain⟩ := Option.map_eq_some_iff.mp h
    cases hsimple : simpleEscape? d with
    | none =>
      rw [hsimple] at hplain
      rw [hd, Escape.plain.inj hplain]
    | some e =>
      rw [hsimple] at hplain
      cases hplain

theorem unescapeDoublePointsFrom_shown (covered : Nat) (ps : List CodePoint) :
    (unescapeDoublePointsFrom position covered ps).map (List.map CodePoint.shown)
      = unescapeDoubleFrom position covered (ps.map CodePoint.shown) := by
  induction ps generalizing covered with
  | nil => rfl
  | cons p ps ih =>
    have hmap : ∀ (lead : List CodePoint) (covered : Nat),
        ((lead ++ ·) <$> unescapeDoublePointsFrom position covered ps).map
            (List.map CodePoint.shown)
          = (lead.map CodePoint.shown ++ ·)
            <$> unescapeDoubleFrom position covered (ps.map CodePoint.shown) := by
      intro lead covered
      rw [← ih]
      cases unescapeDoublePointsFrom position covered ps with
      | error fault => rfl
      | ok others => exact congrArg Except.ok List.map_append
    cases covered with
    | succ covered => exact ih covered
    | zero =>
      rw [List.map_cons, unescapeDoublePointsFrom, unescapeDoubleFrom]
      by_cases hslash : p = .char '\\'
      · subst hslash
        rw [if_neg (by simp), if_neg (by simp)]
        cases hescape : escape? (ps.map CodePoint.shown) with
        | none => exact hmap [.char '\\'] 0
        | some escape =>
          cases escape with
          | char c length => exact hmap [.char c] length
          | plain c =>
            have hhead := head?_of_escape?_plain hescape
            obtain ⟨q, hq, rfl⟩ : ∃ q, ps.head? = some q ∧ q.shown = c := by
              simpa using hhead
            obtain ⟨rest, rfl⟩ := List.head?_eq_some_iff.mp hq
            exact hmap [.char '\\', q] 1
          | codePoint n length =>
            dsimp only
            split
            · rfl
            · have h := hmap [codePointOf n] length
              rw [List.map_singleton, shown_codePointOf] at h
              exact h
      · have hshown : p.shown ≠ '\\' := fun h => hslash ((shown_eq_iff (by decide)).mp h)
        rw [if_pos hslash, if_pos hshown]
        exact hmap [p] 0

/-- A token is read as its code points are, with the surrogates in it shown. -/
theorem unquotePoints_shown (position : Option Nat) (token : List CodePoint) :
    (unquotePoints position token).map (List.map CodePoint.shown)
      = unquote position (token.map CodePoint.shown) := by
  have hhead : (token.map CodePoint.shown).head? = some '\'' ↔ token.head? = some (.char '\'') := by
    cases token with
    | nil => simp
    | cons p token => simp [shown_eq_iff]
  rw [unquotePoints, unquote, ← List.map_drop, ← List.map_dropLast]
  by_cases hsingle : token.head? = some (.char '\'')
  · rw [if_pos hsingle, if_pos (hhead.mpr hsingle), ← unescapeSinglePoints_shown]
    rfl
  · rw [if_neg hsingle, if_neg fun h => hsingle (hhead.mp h), unescapeDoublePointsFrom_shown]

/-! ## 4. String tokens -/

/-- A body that is one string between its quotes has no other token. -/
theorem tokenize_string {quote : Char} (hquote : IsQuote quote) {s : Text}
    (hs : StringInterior quote s) :
    tokenize (quote :: s ++ [quote]) = .ok [⟨.string, quote :: s ++ [quote], 0⟩] := by
  have h := tokensFrom_lexeme (t := []) (reads_string hquote hs) 0
  rw [List.append_nil] at h
  exact h

theorem tokenize_quotedPoints (ps : List CodePoint) :
    tokenize ((quotedPoints ps).map CodePoint.shown)
      = .ok [⟨.string, (quotedPoints ps).map CodePoint.shown, 0⟩] := by
  rw [shown_quotedPoints]
  exact tokenize_string (.inr rfl) (stringInterior_quotedPoints ps)

theorem tokenize_singleQuotedPoints (ps : List CodePoint) :
    tokenize ((singleQuotedPoints ps).map CodePoint.shown)
      = .ok [⟨.string, (singleQuotedPoints ps).map CodePoint.shown, 0⟩] := by
  rw [shown_singleQuotedPoints]
  exact tokenize_string (.inl rfl) (stringInterior_singleQuotedPoints ps)

/-- A text between single quotes stands for the text. -/
theorem unquote_singleQuoted (t : Text) : unquote position (singleQuoted t) = .ok t := by
  have h := unquotePoints_shown position (singleQuotedPoints (t.map .char))
  rw [unquotePoints_singleQuotedPoints, singleQuotedPoints_map_char, map_shown_map_char] at h
  rw [← h]
  exact congrArg Except.ok (map_shown_map_char t)

/-- **Every string can be written as a default**, between double quotes as in a template and
between single quotes: either spelling is one string token, which is all there is up to the end of
the body, and is read as the string. The same holds of strings with surrogates, and on texts
without them their spelling and reading are those of texts. -/
theorem strings_expressible (position : Option Nat) :
    (∀ t : Text,
      (tokenize (quoted t) = .ok [⟨.string, quoted t, 0⟩] ∧
        unquote position (quoted t) = .ok t) ∧
      tokenize (singleQuoted t) = .ok [⟨.string, singleQuoted t, 0⟩] ∧
        unquote position (singleQuoted t) = .ok t) ∧
    (∀ ps : List CodePoint,
      (tokenize ((quotedPoints ps).map CodePoint.shown)
          = .ok [⟨.string, (quotedPoints ps).map CodePoint.shown, 0⟩] ∧
        unquotePoints position (quotedPoints ps) = .ok ps) ∧
      tokenize ((singleQuotedPoints ps).map CodePoint.shown)
          = .ok [⟨.string, (singleQuotedPoints ps).map CodePoint.shown, 0⟩] ∧
        unquotePoints position (singleQuotedPoints ps) = .ok ps) ∧
    ∀ t : Text, quotedPoints (t.map .char) = (quoted t).map .char ∧
      singleQuotedPoints (t.map .char) = (singleQuoted t).map .char ∧
      (unquotePoints position (t.map .char)).map (List.map CodePoint.shown)
        = unquote position t := by
  refine ⟨fun t => ⟨⟨?_, unquote_quoted t⟩, ?_, unquote_singleQuoted t⟩, fun ps => ?_,
    fun t => ⟨quotedPoints_map_char t, singleQuotedPoints_map_char t, ?_⟩⟩
  · exact tokenize_string (.inr rfl) (stringInterior_quoted t)
  · have h := tokenize_singleQuotedPoints (t.map .char)
    rwa [singleQuotedPoints_map_char, map_shown_map_char] at h
  · exact ⟨⟨tokenize_quotedPoints ps, unquotePoints_quotedPoints ps⟩,
      tokenize_singleQuotedPoints ps, unquotePoints_singleQuotedPoints ps⟩
  · rw [unquotePoints_shown, map_shown_map_char]

/-- A backslash before a digit and a quote, in both spellings. -/
example : quoted "\\x4'\"".toList = "\"\\\\x4'\\\"\"".toList ∧
    singleQuoted "\\x4'\"".toList = "'\\\\x4\\'\"'".toList := by
  decide

end ViewContract.Signature
