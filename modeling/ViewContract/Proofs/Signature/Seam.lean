/-
ViewContract.Proofs.Signature.Seam — parameter lists with a comma between them.

No token but a string goes on over a comma, and a string that is closed is closed whatever
follows. So a comma behind a body ends its last token, and the body is cut as before:

  §1 commas in tokens, and tokens of every kind in front of a comma (`tokenLength?_comma`).
  §2 two bodies with a comma between them (`Lexed.comma`).
  §3 a body as its pieces: the scan passes over blanks only (`lexed_of_tokenize`).
-/
import ViewContract.Proofs.Signature.Local

namespace ViewContract.Signature

open ViewContract.Text

variable (t s : Text)

/-! ## 1. Tokens -/

/-- A comma is a token, or stands in a string. -/
theorem comma_not_mem {t : Text} {kind : TokenKind} {n : Nat}
    (h : tokenLength? t = some (kind, n)) (hkind : kind ≠ .string) (hn : 1 < n) :
    ',' ∉ t.take n := by
  cases matched_of_tokenLength? h with
  | variableName hlength =>
    obtain ⟨name, hname, htake⟩ := exists_name_of_variableLength? hlength
    obtain ⟨_, _, _, _, hparts⟩ := exists_of_isIdentifier hname
    rw [htake, List.mem_cons, not_or]
    exact ⟨by decide, fun hmem => absurd (hparts ',' hmem) (by decide)⟩
  | dollar hlength =>
    rw [takesOnly_dollar.length_eq hlength] at hn
    exact absurd hn (by decide)
  | number hlength => exact fun hmem => absurd (numeric_number hlength ',' hmem) (by decide)
  | string hlength => exact absurd rfl hkind
  | name hlength => exact fun hmem => absurd ((className_take hlength).char ',' hmem) (by decide)
  | doubleColon hlength =>
    rw [takesOnly_doubleColon.take_eq hlength]
    decide
  | arrow hlength =>
    rw [takesOnly_arrow.take_eq hlength]
    decide
  | punctuation hlength =>
    rw [punctuationLength?.eq_def] at hlength
    split at hlength
    · split at hlength
      · obtain rfl := Option.some.inj hlength
        omega
      · cases hlength
    · cases hlength

/-- Behind a quote there is a string or nothing. -/
theorem tokenLength?_quote {quote : Char} (hquote : IsQuote quote) :
    tokenLength? (quote :: t) = (stringLength? (quote :: t)).map (.string, ·) := by
  have hfirst : quote ≠ '$' ∧ quote ≠ '.' ∧ quote ≠ '\\' ∧ quote ≠ ':' ∧ quote ≠ '=' ∧
      isDecimalDigit quote = false ∧ isIdentifierStart quote = false ∧
      punctuation.contains quote = false := by
    rcases hquote with rfl | rfl <;> decide
  obtain ⟨hdollar, hpoint, hslash, hcolon, hequals, hdigit, hstart, hmark⟩ := hfirst
  have hpunctuation : punctuationLength? (quote :: t) = none := by
    rw [punctuationLength?, hmark]
    rfl
  cases hlength : stringLength? (quote :: t) <;>
    simp [tokenLength?, matchers, variableLength?_of_ne hdollar, dollarLength?_of_ne hdollar,
      numberLength?_of_not_digit hdigit hpoint, hlength,
      classNameLength?_of_not_start hstart hslash, doubleColonLength?, hcolon, arrowLength?,
      hequals, hpunctuation]

/-- What takes more than a text takes the comma behind it. -/
theorem comma_mem_take {m : Nat} (h : t.length < m) : ',' ∈ (t ++ ',' :: s).take m := by
  obtain ⟨k, rfl⟩ := Nat.exists_eq_add_of_lt h
  rw [Nat.add_assoc, List.take_length_add_append, List.take_succ_cons]
  exact List.mem_append_right t List.mem_cons_self

/-- A comma ends every token. -/
theorem tokenLength?_comma {kind : TokenKind} {n : Nat} (h : tokenLength? t = some (kind, n)) :
    tokenLength? (t ++ ',' :: s) = some (kind, n) := by
  cases t with
  | nil => exact nomatch h
  | cons c t =>
    by_cases hquote : IsQuote c
    · rw [tokenLength?_quote t hquote] at h
      obtain ⟨m, hlength, hpair⟩ := Option.map_eq_some_iff.mp h
      rw [List.cons_append, tokenLength?_quote _ hquote, ← List.cons_append,
        stringLength?_append hlength, Option.map_some, hpair]
    · rcases tokenLength?_append (c :: t) (',' :: s) with hsame | ⟨kind', m, hover, hlt⟩
      · rwa [hsame]
      · have hkind : kind' ≠ .string := by
          rintro rfl
          cases matched_of_tokenLength? hover with
          | string hlength =>
            rw [List.cons_append, stringLength?_of_ne (fun hc => hquote (.inl hc)) fun hc =>
              hquote (.inr hc)] at hlength
            cases hlength
        have hlong : 1 < m := by
          rw [List.length_cons] at hlt
          omega
        exact absurd (comma_mem_take (c :: t) s hlt) (comma_not_mem hover hkind hlong)

/-! ## 2. Bodies -/

theorem Lexeme.Reads.comma {l : Lexeme} (h : l.Reads t) : l.Reads (t ++ ',' :: s) :=
  ⟨h.notBlank, by rw [← List.append_assoc]; exact tokenLength?_comma _ s h.token⟩

variable {t s}

/-- Two bodies with a comma between them are cut as they are by themselves. -/
theorem Lexed.comma {ls ls' : List Lexeme} (h : Lexed ls t) (h' : Lexed ls' s) :
    Lexed (ls ++ .mark ',' :: ls') (t ++ ',' :: s) := by
  induction h with
  | @nil blanks hblank =>
    have hcomma := Lexed.cons hblank (reads_mark (.inr (.inl rfl))) h'
    rw [List.append_assoc] at hcomma
    exact hcomma
  | @cons blanks text l ls hblank hl _ ih =>
    rw [List.append_assoc, List.cons_append]
    exact .cons hblank (hl.comma _ s) ih

/-! ## 3. A body as its pieces -/

theorem Lexed.spaced {ls : List Lexeme} (h : Lexed ls t) : Spaced ls t := by
  induction h with
  | nil hblank => exact .nil hblank
  | cons hblank _ _ ih => exact .cons hblank ih

/-- The scan passes over blanks only, and takes each token as it stands. -/
theorem lexed_of_tokensFrom {t : Text} : ∀ {covered position : Nat} {tokens : List Token},
    tokensFrom covered position t = .ok tokens →
    Lexed (tokens.map Token.lexeme) (t.drop covered) := by
  induction t with
  | nil =>
    intro covered position tokens h
    obtain rfl := Except.ok.inj h
    rw [List.drop_nil]
    exact .nil (List.forall_mem_nil _)
  | cons c t ih =>
    intro covered position tokens h
    cases covered with
    | succ covered => exact ih h
    | zero =>
      rw [tokensFrom] at h
      split at h
      · exact (ih h).blank ‹_›
      · rename_i hblank
        split at h
        · cases h
        · rename_i kind length hlength
          obtain ⟨others, hothers, h⟩ := exists_of_bind_eq_ok h
          obtain rfl := Except.ok.inj h
          obtain ⟨covered, rfl⟩ := Nat.exists_eq_succ_of_ne_zero (tokenLength?_pos hlength).ne'
          have hcut : (c :: t).take (covered + 1) ++ t.drop covered = c :: t :=
            List.take_append_drop (covered + 1) (c :: t)
          have hreads : Lexeme.Reads ⟨kind, (c :: t).take (covered + 1)⟩ (t.drop covered) := by
            refine ⟨⟨c, t.take covered, rfl, by simpa using hblank⟩, ?_⟩
            rw [hcut, hlength, List.length_take_of_le (tokenLength?_le hlength)]
          have hnext := (ih hothers).next hreads
          rwa [hcut] at hnext

/-- A body that can be cut into tokens is its tokens, with blanks at will. -/
theorem lexed_of_tokenize {body : Text} {tokens : List Token} (h : tokenize body = .ok tokens) :
    Lexed (tokens.map Token.lexeme) body :=
  lexed_of_tokensFrom h

theorem spaced_of_tokenize {body : Text} {tokens : List Token} (h : tokenize body = .ok tokens) :
    Spaced (tokens.map Token.lexeme) body :=
  (lexed_of_tokenize h).spaced

end ViewContract.Signature
