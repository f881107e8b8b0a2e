/-
ViewContract.Proofs.Template.Quoted — quoted texts stand for themselves.

A text is written between quotes for the template language, and the template reads it in two
steps: characters beyond ASCII become escapes, then all escapes are read. Each code point of
the text is one block of both (`readPointsFrom_point`), so the round trip is a fold over the
code points:

  §1 the round trip, with surrogates (`unquotePoints_quotedPoints`).
  §2 texts, which have no surrogates (`unquote_quoted`).
  §3 what a quoted text looks like to the scan: one string on one line (`quotable_inner`,
     `not_mem_quoted`).
  §4 quoted texts as tokens, in front of any text (`quoted_token`).
-/
import ViewContract.Proofs.Template.Lexeme
import ViewContract.Proofs.Template.Passage
import ViewContract.Proofs.Text.Hex
import ViewContract.Template.CodePoint

namespace ViewContract.Template

open ViewContract.Text

/-! ## 1. The round trip -/

theorem surrogate?_toNat (c : Char) : CodePoint.surrogate? c.toNat = none := by
  have hvalid : c.toNat.isValidChar := c.valid
  simp only [Nat.isValidChar] at hvalid
  rw [CodePoint.surrogate?, dif_neg (by omega)]

theorem surrogate?_surrogate (index : Fin 0x800) :
    CodePoint.surrogate? (0xd800 + index) = some (.surrogate index) := by
  rw [CodePoint.surrogate?, dif_pos (by omega)]
  simp

theorem codePoint?_toNat (c : Char) : codePoint? c.toNat = some c := by
  have hvalid : c.toNat.isValidChar := c.valid
  rw [codePoint?, if_pos hvalid, Char.ofNat_toNat]

/-- The characters that an escape covers are passed over. -/
theorem readPointsFrom_covered (t rest : Text) :
    readPointsFrom t.length (t ++ rest) = readPointsFrom 0 rest := by
  induction t with
  | nil => rfl
  | cons c t ih => rw [List.length_cons, List.cons_append, readPointsFrom, ih]

/-- An escape that is read as one code point. -/
theorem readPointsFrom_escape {t : Text} {p : CodePoint} {rest : Text}
    (h : readPoint (t ++ rest) = some ([p], t.length)) :
    readPointsFrom 0 ('\\' :: t ++ rest) = (p :: ·) <$> readPointsFrom 0 rest := by
  rw [List.cons_append, readPointsFrom, if_neg (by simp), h]
  simp only [Option.bind_eq_bind, Option.bind_some, readPointsFrom_covered]
  cases readPointsFrom 0 rest <;> rfl

theorem readPointsFrom_plain {c : Char} (hc : c ≠ '\\') (rest : Text) :
    readPointsFrom 0 ([c] ++ rest) = (.char c :: ·) <$> readPointsFrom 0 rest := by
  rw [List.singleton_append, readPointsFrom, if_pos hc]

/-- The escape of a code point with digits of base sixteen. -/
theorem readPointsFrom_number {letter : Char} {width : Nat}
    (hletter : (letter, width) ∈ [('x', 2), ('u', 4), ('U', 8)]) {p : CodePoint}
    (hp : p.toNat < 16 ^ width) (rest : Text) :
    readPointsFrom 0 ('\\' :: letter :: hexDigits width p.toNat ++ rest)
      = (p :: ·) <$> readPointsFrom 0 rest := by
  have hwidth : 0 < width := by
    simp only [List.mem_cons, Prod.mk.injEq, List.not_mem_nil, or_false] at hletter
    omega
  have hlen := length_hexDigits hwidth hp
  have htake : (hexDigits width p.toNat ++ rest).take width = hexDigits width p.toNat :=
    List.take_left' hlen
  have hcount : ((hexDigits width p.toNat).filterMap (digitBelow? 16)).length = width := by
    rw [List.length_filterMap_eq_countP, List.countP_eq_length.mpr, hlen]
    intro d hd
    obtain ⟨n, hn, rfl⟩ := exists_of_mem_hexDigits hd
    rw [(digitChar_spec hn).1]
    rfl
  refine readPointsFrom_escape (t := letter :: hexDigits width p.toNat) ?_
  simp only [List.mem_cons, Prod.mk.injEq, List.not_mem_nil, or_false] at hletter
  cases p with
  | char c =>
    rw [CodePoint.toNat_char] at *
    rcases hletter with ⟨rfl, rfl⟩ | ⟨rfl, rfl⟩ | ⟨rfl, rfl⟩ <;>
      simp [readPoint, surrogateEscape?, readEscape, htake, hcount, ofDigits_hexDigits,
        surrogate?_toNat, codePoint?_toNat, hlen]
  | surrogate index =>
    rw [CodePoint.toNat_surrogate] at *
    rcases hletter with ⟨rfl, rfl⟩ | ⟨rfl, rfl⟩ | ⟨rfl, rfl⟩
    · omega
    all_goals
      simp [readPoint, surrogateEscape?, htake, hcount, ofDigits_hexDigits,
        surrogate?_surrogate, hlen]

theorem asciiChar_of_lt {c : Char} (hc : c.toNat < 0x80) : asciiChar c = [c] := by
  rw [asciiChar, if_pos hc]

/-- An escape that a quoted text holds already stays as it is. -/
theorem flatMap_asciiChar {t : Text} (h : ∀ c ∈ t, c.toNat < 0x80) : t.flatMap asciiChar = t := by
  induction t with
  | nil => rfl
  | cons c t ih =>
    rw [List.flatMap_cons, asciiChar_of_lt (h c List.mem_cons_self),
      ih fun d hd => h d (List.mem_cons_of_mem c hd)]
    rfl

/-- A character is read back from its ASCII form, which is the character itself or the escape of its
number. -/
theorem readPointsFrom_asciiChar {c : Char} (hbackslash : c ≠ '\\') (rest : Text) :
    readPointsFrom 0 (asciiChar c ++ rest) = (.char c :: ·) <$> readPointsFrom 0 rest := by
  have hnumber {letter : Char} {width : Nat}
      (hletter : (letter, width) ∈ [('x', 2), ('u', 4), ('U', 8)]) (hc : c.toNat < 16 ^ width) :=
    readPointsFrom_number hletter (p := .char c) hc rest
  rw [asciiChar]
  split
  · exact readPointsFrom_plain hbackslash rest
  · split
    · exact hnumber (by simp) (by omega)
    · split
      · exact hnumber (by simp) (by omega)
      · have hvalid : c.toNat < 0x110000 := by
          have := c.valid
          simp only [UInt32.isValidChar, Nat.isValidChar] at this
          change c.toNat < _ ∨ _ ∧ c.toNat < _ at this
          omega
        exact hnumber (by simp) (by omega)

/-- Both steps of the reading undo the writing of one character. -/
theorem readPointsFrom_char (c : Char) (rest : Text) :
    readPointsFrom 0 ((quotedChar c).flatMap asciiChar ++ rest)
      = (.char c :: ·) <$> readPointsFrom 0 rest := by
  rw [quotedChar]
  split
  · rename_i h
    rw [h]
    exact readPointsFrom_escape (t := ['\\']) rfl
  · rename_i hbackslash
    split
    · rename_i h
      rw [h]
      exact readPointsFrom_escape (t := ['"']) rfl
    · split
      · rename_i h
        rw [h]
        exact readPointsFrom_escape (t := ['n']) rfl
      · split
        · rename_i h
          rw [h]
          exact readPointsFrom_escape (t := ['r']) rfl
        · split
          · rename_i h
            rw [h]
            exact readPointsFrom_escape (t := ['t']) rfl
          · split
            · -- a control character
              rename_i h
              have hlt : c.toNat < 0x80 := by
                simp only [Bool.or_eq_true, decide_eq_true_eq] at h
                omega
              rw [flatMap_asciiChar]
              · refine readPointsFrom_number (by simp) (p := .char c) ?_ rest
                rw [CodePoint.toNat_char]
                omega
              · intro d hd
                rcases List.mem_cons.mp hd with rfl | hd
                · decide
                · rcases List.mem_cons.mp hd with rfl | hd
                  · decide
                  · exact lt_of_mem_hexDigits hd
            · rw [List.flatMap_cons, List.flatMap_nil, List.append_nil]
              exact readPointsFrom_asciiChar hbackslash rest

/-- A surrogate is written as it is, and read from the escape of its number. -/
theorem readPointsFrom_point (p : CodePoint) (rest : Text) :
    readPointsFrom 0 ((quotedPoint p).flatMap asciiPoint ++ rest)
      = (p :: ·) <$> readPointsFrom 0 rest := by
  cases p with
  | char c =>
    rw [quotedPoint, List.flatMap_map]
    exact readPointsFrom_char c rest
  | surrogate index =>
    rw [quotedPoint, List.flatMap_singleton]
    have hlt : (CodePoint.surrogate index).toNat < 16 ^ 4 := by
      rw [CodePoint.toNat_surrogate]
      omega
    exact readPointsFrom_number (by simp) hlt rest

/-- Quoted code points stand for the code points. -/
theorem unquotePoints_quotedPoints (ps : List CodePoint) :
    unquotePoints (quotedPoints ps) = some ps := by
  have hinner : ((quotedPoints ps).drop 1).dropLast = ps.flatMap quotedPoint := by
    rw [quotedPoints, List.cons_append, List.drop_succ_cons, List.drop_zero, List.dropLast_concat]
  rw [unquotePoints, hinner]
  clear hinner
  induction ps with
  | nil => rfl
  | cons p ps ih => rw [List.flatMap_cons, List.flatMap_append, readPointsFrom_point, ih]; rfl

/-! ## 2. Texts -/

theorem map_shown_map_char (t : Text) : (t.map CodePoint.char).map CodePoint.shown = t := by
  rw [List.map_map]
  exact List.map_id t

theorem codePoint?_of_surrogate? {n : Nat} {p : CodePoint} (h : CodePoint.surrogate? n = some p) :
    codePoint? n = some p.shown := by
  unfold CodePoint.surrogate? at h
  split at h
  · rename_i hn
    obtain rfl := Option.some.inj h
    have hvalid : ¬ n.isValidChar := by
      simp only [Nat.isValidChar]
      omega
    rw [codePoint?, if_neg hvalid, if_pos (by omega), CodePoint.shown]
  · exact nomatch h

theorem readEscape_of_surrogateEscape? {t : Text} {p : CodePoint} {length : Nat}
    (h : surrogateEscape? t = some (p, length)) : readEscape t = some ([p.shown], length) := by
  unfold surrogateEscape? at h
  dsimp only at h
  split at h
  case h_3 => exact nomatch h
  all_goals
    split at h
    · rename_i hcount
      obtain ⟨q, hq, heq⟩ := Option.map_eq_some_iff.mp h
      obtain ⟨rfl, rfl⟩ := Prod.mk.inj heq
      simp [readEscape, hcount, codePoint?_of_surrogate? hq]
    · exact nomatch h

/-- An escape is read alike as code points and as text. -/
theorem readPoint_shown (t : Text) :
    (readPoint t).map (fun (ps, length) => (ps.map CodePoint.shown, length)) = readEscape t := by
  unfold readPoint
  cases h : surrogateEscape? t with
  | some read => exact (readEscape_of_surrogateEscape? h).symm
  | none =>
    cases readEscape t with
    | none => rfl
    | some read => exact congrArg some (Prod.ext (map_shown_map_char read.1) rfl)

theorem readPointsFrom_shown (covered : Nat) (t : Text) :
    (readPointsFrom covered t).map (List.map CodePoint.shown) = readEscapesFrom covered t := by
  induction t generalizing covered with
  | nil => rfl
  | cons c t ih =>
    cases covered with
    | succ covered => exact ih covered
    | zero =>
      rw [readPointsFrom, readEscapesFrom]
      split
      · rw [← ih]
        cases readPointsFrom 0 t <;> rfl
      · rw [← readPoint_shown]
        cases readPoint t with
        | none => rfl
        | some read =>
          obtain ⟨ps, length⟩ := read
          simp only [Option.bind_eq_bind, Option.bind_some, Option.map_some, ← ih]
          cases readPointsFrom length t <;> simp [pure]

/-- A text is read as its code points are, with the surrogates that it gets replaced. -/
theorem unquotePoints_shown (token : Text) :
    (unquotePoints (token.map .char)).map (List.map CodePoint.shown) = unquote token := by
  rw [unquotePoints, readPointsFrom_shown, ← List.map_drop, ← List.map_dropLast, List.flatMap_map]
  rfl

theorem quotedPoints_map_char (t : Text) : quotedPoints (t.map .char) = (quoted t).map .char := by
  simp [quotedPoints, quoted, List.flatMap_map, List.map_flatMap, quotedPoint]

/-- A quoted text stands for the text. -/
theorem unquote_quoted (t : Text) : unquote (quoted t) = some t := by
  rw [← unquotePoints_shown, ← quotedPoints_map_char, unquotePoints_quotedPoints, Option.map_some,
    map_shown_map_char]

/-! ## 3. What the scan sees -/

theorem quotable_of_plain : ∀ {t : Text}, (∀ c ∈ t, c ≠ '"' ∧ c ≠ '\\') → Quotable t
  | [], _ => .nil
  | c :: _, h => .char (h c List.mem_cons_self)
      (quotable_of_plain fun d hd => h d (List.mem_cons_of_mem c hd))

theorem quotable_char (c : Char) : Quotable (quotedChar c) := by
  rw [quotedChar]
  split
  · exact .escape .nil
  · rename_i hbackslash
    split
    · exact .escape .nil
    · rename_i hquote
      split
      · exact .escape .nil
      · split
        · exact .escape .nil
        · split
          · exact .escape .nil
          · split
            · refine .escape (quotable_of_plain fun d hd => ?_)
              obtain ⟨n, hn, rfl⟩ := exists_of_mem_hexDigits hd
              obtain ⟨-, -, hquote, hslash, -⟩ := digitChar_spec hn
              exact ⟨hquote, hslash⟩
            · exact .char ⟨hquote, hbackslash⟩ .nil

/-- What is written piece by piece has no quote without a backslash before it. -/
theorem quotable_flatMap {α : Type} {f : α → Text} (hf : ∀ a, Quotable (f a)) (l : List α) :
    Quotable (l.flatMap f) := by
  induction l with
  | nil => exact .nil
  | cons a l ih =>
    rw [List.flatMap_cons]
    exact (hf a).append ih

theorem quotable_inner (t : Text) : Quotable (t.flatMap quotedChar) :=
  quotable_flatMap quotable_char t

/-- No control character is left in a quoted text. -/
theorem le_of_mem_quotedChar {c d : Char} (hd : d ∈ quotedChar c) : 0x20 ≤ d.toNat := by
  have hescape : ∀ {e : Char}, 0x20 ≤ e.toNat → d ∈ ['\\', e] → 0x20 ≤ d.toNat := by
    intro e he hd
    rcases List.mem_cons.mp hd with rfl | hd
    · decide
    · rwa [List.mem_singleton.mp hd]
  rw [quotedChar] at hd
  split at hd
  · exact hescape (by decide) hd
  · split at hd
    · exact hescape (by decide) hd
    · split at hd
      · exact hescape (by decide) hd
      · split at hd
        · exact hescape (by decide) hd
        · split at hd
          · exact hescape (by decide) hd
          · split at hd
            · rcases List.mem_cons.mp hd with rfl | hd
              · decide
              · rcases List.mem_cons.mp hd with rfl | hd
                · decide
                · obtain ⟨n, hn, rfl⟩ := exists_of_mem_hexDigits hd
                  exact (digitChar_spec hn).2.2.2.2
            · rename_i hcontrol
              obtain rfl := List.mem_singleton.mp hd
              simp only [Bool.or_eq_true, decide_eq_true_eq, not_or] at hcontrol
              omega

theorem le_of_mem_quotedPoints {ps : List CodePoint} {p : CodePoint} (hp : p ∈ quotedPoints ps) :
    0x20 ≤ p.toNat := by
  simp only [quotedPoints, List.cons_append, List.mem_cons, List.mem_append, List.mem_flatMap,
    List.not_mem_nil, or_false] at hp
  rcases hp with rfl | ⟨q, -, hq⟩ | rfl
  · decide
  · cases q with
    | char c =>
      obtain ⟨d, hd, rfl⟩ := List.mem_map.mp hq
      exact le_of_mem_quotedChar hd
    | surrogate index =>
      obtain rfl := List.mem_singleton.mp hq
      rw [CodePoint.toNat_surrogate]
      omega
  · decide

/-- A quoted text is on one line. -/
theorem not_mem_quoted {d : Char} (hd : d = '\n' ∨ d = '\r') (t : Text) : d ∉ quoted t := by
  intro hmem
  have hpoint : CodePoint.char d ∈ quotedPoints (t.map .char) := by
    rw [quotedPoints_map_char]
    exact List.mem_map_of_mem hmem
  have hle := le_of_mem_quotedPoints hpoint
  rcases hd with rfl | rfl <;> exact absurd hle (by decide)

/-! ## 4. String tokens -/

theorem quotable_point (p : CodePoint) : Quotable ((quotedPoint p).map CodePoint.shown) := by
  cases p with
  | char c =>
    rw [quotedPoint, map_shown_map_char]
    exact quotable_char c
  | surrogate index => exact .char (by simp) .nil

theorem shown_quotedPoints (ps : List CodePoint) : (quotedPoints ps).map CodePoint.shown
    = '"' :: ps.flatMap (fun p => (quotedPoint p).map CodePoint.shown) ++ ['"'] := by
  simp [quotedPoints, List.map_flatMap, CodePoint.shown]

theorem not_return_mem_shown (ps : List CodePoint) :
    '\r' ∉ (quotedPoints ps).map CodePoint.shown := by
  intro hmem
  obtain ⟨p, hp, hshown⟩ := List.mem_map.mp hmem
  cases p with
  | char c =>
    rw [CodePoint.shown_char] at hshown
    rw [hshown] at hp
    exact absurd (le_of_mem_quotedPoints hp) (by decide)
  | surrogate index => exact absurd hshown (by simp)

/-- **A quoted text is one string token that stands for the text**, whatever follows it. Its quote
is the next one without a backslash of its own before it, and it has no control characters, so that
no line break in it or at its ends is unified. On texts without surrogates these are the quoting
and the reading of templates. -/
theorem quoted_token (ps : List CodePoint) :
    (∀ (before : Option Char) (rest : List CodePoint),
      lexeme? before ((quotedPoints ps ++ rest).map CodePoint.shown)
        = some (.string, (quotedPoints ps).length) ∧
      unquotePoints ((quotedPoints ps ++ rest).take (quotedPoints ps).length) = some ps) ∧
    (∃ inner, (quotedPoints ps).map CodePoint.shown = '"' :: inner ++ ['"'] ∧ Quotable inner) ∧
    (∀ p ∈ quotedPoints ps, 0x20 ≤ p.toNat) ∧
    (∀ u w : Text, unifyLineFeeds (u ++ (quotedPoints ps).map CodePoint.shown ++ w)
      = unifyLineFeeds u ++ (quotedPoints ps).map CodePoint.shown ++ unifyLineFeeds w) ∧
    ∀ t : Text, ps = t.map .char → quotedPoints ps = (quoted t).map .char ∧
      ∀ (before : Option Char) (rest : Text),
        lexeme? before (quoted t ++ rest) = some (.string, (quoted t).length) ∧
        unquote ((quoted t ++ rest).take (quoted t).length) = some t := by
  have hquotable := quotable_flatMap quotable_point ps
  refine ⟨fun before rest => ⟨?_, ?_⟩, ⟨_, shown_quotedPoints ps, hquotable⟩,
    fun p hp => le_of_mem_quotedPoints hp, fun u w => ?_, ?_⟩
  · rw [List.map_append, ← List.length_map (f := CodePoint.shown), shown_quotedPoints]
    exact lexeme?_string hquotable
  · rw [List.take_left]
    exact unquotePoints_quotedPoints ps
  · have hhead : ((quotedPoints ps).map CodePoint.shown ++ w).head? ≠ some '\n' := by
      rw [shown_quotedPoints]
      simp
    rw [List.append_assoc, unifyLineFeeds_append hhead,
      unifyLineFeeds_append_left (not_return_mem_shown ps), List.append_assoc]
  · rintro t rfl
    refine ⟨quotedPoints_map_char t, fun before rest => ⟨lexeme?_string (quotable_inner t), ?_⟩⟩
    rw [List.take_left]
    exact unquote_quoted t

/-- A backslash before a surrogate, and two surrogates that would be a pair. -/
example : unquotePoints (quotedPoints [.char '\\', .surrogate 0x3d, .surrogate 0x600])
    = some [.char '\\', .surrogate 0x3d, .surrogate 0x600] := by
  decide

end ViewContract.Template
