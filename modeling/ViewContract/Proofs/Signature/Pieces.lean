/-
ViewContract.Proofs.Signature.Pieces — the pieces that a body is made of.

What a second scan does on a body is said token by token, and for that it is enough to know what
the text of a token looks like:

  §1 string tokens, which are texts between quotes.
  §2 the other tokens, which have no quote and no line feed in them, and no parenthesis either,
     except for the two tokens that are one (`Lexeme.Shaped`).
-/
import ViewContract.Proofs.Annotation.Declared
import ViewContract.Proofs.Signature.Number

namespace ViewContract.Signature

open Text

/-! ## 1. String tokens -/

/-- What is read up to a quote is the inside of a string. -/
theorem exists_interior_of_stringTail? {quote : Char} {t : Text} {k : Nat}
    (h : stringTail? quote t = some k) :
    ∃ s rest, t = s ++ quote :: rest ∧ k = s.length + 1 ∧ StringInterior quote s := by
  fun_induction stringTail? quote t generalizing k with
  | case1 => cases h
  | case2 => cases h
  | case3 => cases h
  | case4 c rest hc ih =>
    obtain ⟨j, hj, rfl⟩ := Option.map_eq_some_iff.mp h
    obtain ⟨s, after, rfl, rfl, hs⟩ := ih hj
    exact ⟨'\\' :: c :: s, after, rfl, rfl, .escape hc hs⟩
  | case5 rest hslash =>
    obtain rfl := Option.some.inj h
    exact ⟨[], rest, rfl, rfl, .nil⟩
  | case6 c rest hslash hquote ih =>
    obtain ⟨j, hj, rfl⟩ := Option.map_eq_some_iff.mp h
    obtain ⟨s, after, rfl, rfl, hs⟩ := ih hj
    exact ⟨c :: s, after, rfl, rfl, .char ⟨hquote, hslash⟩ trivial hs⟩

theorem exists_interior_of_stringLength? {t : Text} {k : Nat} (h : stringLength? t = some k) :
    ∃ quote s, IsQuote quote ∧ StringInterior quote s ∧ t.take k = quote :: s ++ [quote] := by
  have htake : ∀ {quote : Char} {rest : Text},
      (stringTail? quote rest).map (· + 1) = some k →
      ∃ s, StringInterior quote s ∧ (quote :: rest).take k = quote :: s ++ [quote] := by
    intro quote rest h
    obtain ⟨j, hj, rfl⟩ := Option.map_eq_some_iff.mp h
    obtain ⟨s, after, rfl, rfl, hs⟩ := exists_interior_of_stringTail? hj
    refine ⟨s, hs, ?_⟩
    rw [List.take_succ_cons, List.take_length_add_append]
    rfl
  rw [stringLength?.eq_def] at h
  split at h
  · obtain ⟨s, hs, hcut⟩ := htake h
    exact ⟨'\'', s, .inl rfl, hs, hcut⟩
  · obtain ⟨s, hs, hcut⟩ := htake h
    exact ⟨'"', s, .inr rfl, hs, hcut⟩
  · cases h

/-! ## 2. The texts of tokens -/

/-- The characters that a scan for a closing parenthesis looks at outside of quotes. -/
def specials : Text := "\n'\"()".toList

/-- A character that means nothing to such a scan. -/
def IsOrdinary (c : Char) : Prop :=
  c ∉ specials

theorem IsOrdinary.ne {c : Char} (h : IsOrdinary c) :
    c ≠ '\n' ∧ c ≠ '\'' ∧ c ≠ '"' ∧ c ≠ '(' ∧ c ≠ ')' := by
  simpa [IsOrdinary, specials] using h

instance : DecidablePred IsOrdinary :=
  fun c => inferInstanceAs (Decidable (c ∉ specials))

theorem ordinary_of_forall {p : Char → Prop} (hp : ∀ d ∈ specials, ¬ p d) {c : Char} (hc : p c) :
    IsOrdinary c :=
  fun hmem => hp c hmem hc

theorem ordinary_of_isIdentifierPart {c : Char} (h : isIdentifierPart c = true) : IsOrdinary c :=
  ordinary_of_forall (p := fun c => isIdentifierPart c = true) (forall_mem_of_all (by decide)) h

instance : DecidablePred IsNumberChar :=
  fun c => inferInstanceAs
    (Decidable (isDecimalDigit c = true ∨ c.isAlpha = true ∨ c ∈ ['_', '.', '+', '-']))

theorem IsNumberChar.ordinary {c : Char} (h : IsNumberChar c) : IsOrdinary c :=
  ordinary_of_forall (forall_mem_of_all (by decide)) h

/-- What the text of a token looks like. -/
inductive Lexeme.Shaped : Lexeme → Prop where
  | string {quote : Char} {s : Text} (hquote : IsQuote quote) (hs : StringInterior quote s) :
      Shaped ⟨.string, quote :: s ++ [quote]⟩
  | parenthesis {c : Char} (hc : c = '(' ∨ c = ')') : Shaped (.mark c)
  | ordinary {kind : TokenKind} {text : Text} (hne : text ≠ []) (htext : ∀ c ∈ text, IsOrdinary c) :
      Shaped ⟨kind, text⟩

theorem Lexeme.Shaped.ne_nil {l : Lexeme} (h : l.Shaped) : l.text ≠ [] := by
  cases h with
  | string => exact List.cons_ne_nil _ _
  | parenthesis => exact List.cons_ne_nil _ _
  | ordinary hne => exact hne

/-- A token of a fixed text. -/
theorem shaped_of_all {kind : TokenKind} {text : Text}
    (h : text ≠ [] ∧ text.all (fun c => decide (IsOrdinary c)) = true) :
    Lexeme.Shaped ⟨kind, text⟩ :=
  .ordinary h.1 (forall_mem_of_all h.2)

theorem shaped_variable {kind : TokenKind} {t : Text} {k : Nat} (h : variableLength? t = some k) :
    Lexeme.Shaped ⟨kind, t.take k⟩ := by
  obtain ⟨name, hidentifier, htake⟩ := exists_name_of_variableLength? h
  obtain ⟨_, _, _, _, hparts⟩ := exists_of_isIdentifier hidentifier
  rw [htake]
  exact .ordinary (List.cons_ne_nil _ _) (List.forall_mem_cons.mpr
    ⟨by decide, fun c hc => ordinary_of_isIdentifierPart (hparts c hc)⟩)

theorem numberLength?_pos {t : Text} {k : Nat} (h : numberLength? t = some k) : 0 < k := by
  have hprefixed : ∀ {letter isDigit}, prefixedLength? letter isDigit t = some k → 0 < k := by
    intro letter isDigit h
    rw [prefixedLength?.eq_def] at h
    split at h
    · dsimp only at h
      split at h
      · obtain rfl := Option.some.inj h
        exact Nat.succ_pos _
      · cases h
    · cases h
  simp only [numberLength?, Option.orElse_eq_some] at h
  rcases h with h | ⟨-, h | ⟨-, h | ⟨-, h | ⟨-, h⟩⟩⟩⟩
  · exact hprefixed h
  · exact hprefixed h
  · exact hprefixed h
  · rw [pointedLength?] at h
    split at h
    · dsimp only at h
      split at h
      · cases h
      · obtain rfl := Option.some.inj h
        omega
    · cases h
  · rw [wholeLength?] at h
    dsimp only at h
    split at h
    · cases h
    · obtain rfl := Option.some.inj h
      refine Nat.add_pos_left ?_ _
      split
      · exact Nat.succ_pos _
      · exact Nat.pos_of_ne_zero ‹_›

theorem shaped_number {kind : TokenKind} {t : Text} {k : Nat} (h : numberLength? t = some k) :
    Lexeme.Shaped ⟨kind, t.take k⟩ := by
  refine .ordinary ?_ fun c hc => (numeric_number h c hc).ordinary
  cases t with
  | nil => cases h
  | cons c t =>
    obtain ⟨k, rfl⟩ := Nat.exists_eq_succ_of_ne_zero (numberLength?_pos h).ne'
    exact List.cons_ne_nil _ _

theorem shaped_name {kind : TokenKind} {t : Text} {k : Nat} (h : classNameLength? t = some k) :
    Lexeme.Shaped ⟨kind, t.take k⟩ := by
  have hname := className_take h
  refine .ordinary ?_ fun c hc => ?_
  · obtain ⟨c, rest, hcut, _⟩ := hname.exists_head
    rw [hcut]
    exact List.cons_ne_nil _ _
  · rcases hname.char c hc with hpart | rfl | rfl
    · exact ordinary_of_isIdentifierPart hpart
    · decide
    · decide

/-- A mark is a parenthesis, or means nothing to the scan. -/
theorem shaped_punctuation {t : Text} {k : Nat} (h : punctuationLength? t = some k) :
    Lexeme.Shaped ⟨.punctuation, t.take k⟩ := by
  cases t with
  | nil => cases h
  | cons c t =>
    rw [punctuationLength?] at h
    split at h
    · rename_i hmark
      obtain rfl := Option.some.inj h
      have hmarks : ∀ c ∈ punctuation, (c = '(' ∨ c = ')') ∨ IsOrdinary c :=
        forall_mem_of_all (by decide)
      rcases hmarks c (List.mem_of_elem_eq_true hmark) with hparenthesis | hordinary
      · exact .parenthesis hparenthesis
      · exact .ordinary (List.cons_ne_nil _ _) (List.forall_mem_singleton.mpr hordinary)
    · cases h

/-- Whatever a matcher takes is shaped like this. -/
theorem shaped_of_tokenLength? {t : Text} {kind : TokenKind} {length : Nat}
    (h : tokenLength? t = some (kind, length)) : Lexeme.Shaped ⟨kind, t.take length⟩ := by
  cases matched_of_tokenLength? h with
  | variableName hlength => exact shaped_variable hlength
  | dollar hlength =>
    rw [takesOnly_dollar.take_eq hlength]
    exact shaped_of_all (by decide)
  | number hlength => exact shaped_number hlength
  | string hlength =>
    obtain ⟨quote, s, hquote, hs, htake⟩ := exists_interior_of_stringLength? hlength
    rw [htake]
    exact .string hquote hs
  | name hlength => exact shaped_name hlength
  | doubleColon hlength =>
    rw [takesOnly_doubleColon.take_eq hlength]
    exact shaped_of_all (by decide)
  | arrow hlength =>
    rw [takesOnly_arrow.take_eq hlength]
    exact shaped_of_all (by decide)
  | punctuation hlength => exact shaped_punctuation hlength

theorem shaped_of_tokenize {body : Text} {tokens : List Token} (h : tokenize body = .ok tokens) :
    ∀ token ∈ tokens, token.lexeme.Shaped :=
  forall_lexeme_of_tokenize shaped_of_tokenLength? h

/-- No token is empty. -/
theorem tokenLength?_pos {t : Text} {kind : TokenKind} {length : Nat}
    (h : tokenLength? t = some (kind, length)) : 0 < length := by
  refine Nat.pos_of_ne_zero ?_
  rintro rfl
  exact (shaped_of_tokenLength? h).ne_nil rfl

end ViewContract.Signature
