/-
ViewContract.Proofs.Signature.Coverage — the scan for tokens loses nothing.

What the scan does at a place is said by the token there: it is a piece of the body at its position,
and the scan goes on behind it. So the tokens of a body are laid out in it one behind the other,
and nothing but blanks is left out:

  §1 tokens laid out in a text (`Laid`). Those of a body are.
  §2 what this says about the places of the tokens and of the other characters.
  §3 a scan that fails: in front of the character where it stops the tokens are the same
     without what follows (`exists_of_tokensFrom_eq_error`).
  §4 bodies (`tokenize_covers`).
-/
import ViewContract.Proofs.Signature.Seam

namespace ViewContract.Signature

open ViewContract.Text

/-! ## 1. Tokens laid out -/

/-- Where the text of a token ends. -/
def Token.stop (token : Token) : Nat :=
  token.position + token.text.length

/-- Tokens laid out in a text that begins at a position, with blanks at will. -/
inductive Laid : Nat → List Token → Text → Prop where
  | nil {position : Nat} {blanks : Text} (hblank : ∀ c ∈ blanks, isBlank c = true) :
      Laid position [] blanks
  | cons {position : Nat} {blanks text : Text} {token : Token} {tokens : List Token}
      (hblank : ∀ c ∈ blanks, isBlank c = true) (hne : token.text ≠ [])
      (hposition : token.position = position + blanks.length)
      (hrest : Laid token.stop tokens text) :
      Laid position (token :: tokens) (blanks ++ token.text ++ text)

theorem laid_of_lexed {ls : List Lexeme} {t : Text} (h : Lexed ls t) {position : Nat}
    {tokens : List Token} (htokens : tokensFrom 0 position t = .ok tokens) :
    Laid position tokens t := by
  induction h generalizing position tokens with
  | @nil blanks hblank =>
    have hnone := tokensFrom_blanks hblank [] position
    rw [List.append_nil, htokens] at hnone
    obtain rfl := Except.ok.inj hnone
    exact .nil hblank
  | @cons blanks text l ls hblank hl _ ih =>
    rw [List.append_assoc, tokensFrom_blanks hblank, tokensFrom_lexeme hl] at htokens
    cases hrest : tokensFrom 0 (position + blanks.length + l.text.length) text with
    | error fault =>
      rw [hrest] at htokens
      cases htokens
    | ok others =>
      rw [hrest] at htokens
      obtain rfl := Except.ok.inj htokens
      obtain ⟨c, rest, hcut, -⟩ := hl.notBlank
      exact @Laid.cons position blanks text ⟨l.kind, l.text, position + blanks.length⟩ others hblank
        (by rw [hcut]; exact List.cons_ne_nil c rest) rfl (ih hrest)

theorem laid_of_tokenize {body : Text} {tokens : List Token} (h : tokenize body = .ok tokens) :
    Laid 0 tokens body :=
  laid_of_lexed (lexed_of_tokenize h) h

/-! ## 2. Places -/

section laid

variable {position : Nat} {tokens : List Token} {t : Text}

/-- Tokens stand behind the position that they are laid out from, and end in the text. -/
theorem Laid.bounds (h : Laid position tokens t) :
    ∀ token ∈ tokens, position ≤ token.position ∧ token.position < token.stop ∧
      token.stop ≤ position + t.length := by
  induction h with
  | nil => exact List.forall_mem_nil _
  | @cons position blanks text token tokens hblank hne hposition hrest ih =>
    have hlength : (blanks ++ token.text ++ text).length
        = blanks.length + token.text.length + text.length := by simp [Nat.add_assoc]
    have hpos := List.length_pos_iff.mpr hne
    have hstop : token.stop = token.position + token.text.length := rfl
    rw [hlength, List.forall_mem_cons]
    refine ⟨⟨by omega, by omega, by omega⟩, ?_⟩
    intro next hnext
    obtain ⟨hstart, hsome, hend⟩ := ih next hnext
    exact ⟨by omega, hsome, by omega⟩

/-- Each token ends in front of the next. -/
theorem Laid.apart (h : Laid position tokens t) :
    tokens.Pairwise fun token next => token.stop ≤ next.position := by
  induction h with
  | nil => exact List.Pairwise.nil
  | cons _ _ _ hrest ih =>
    exact List.pairwise_cons.mpr ⟨fun next hnext => (hrest.bounds next hnext).1, ih⟩

/-- There are no more tokens than characters. -/
theorem Laid.length_le (h : Laid position tokens t) : tokens.length ≤ t.length := by
  induction h with
  | nil => exact Nat.zero_le _
  | cons _ hne _ _ ih =>
    have := List.length_pos_iff.mpr hne
    simp only [List.length_cons, List.length_append]
    omega

/-- A token covers the places of its text. -/
def Token.Covers (token : Token) (place : Nat) : Prop :=
  token.position ≤ place ∧ place < token.stop

/-- Each token is a piece of the whole text at its position. -/
theorem Laid.piece (h : Laid position tokens t) {front : Text} (hfront : front.length = position) :
    ∀ token ∈ tokens, token.text ≠ [] ∧ token.text <+: (front ++ t).drop token.position := by
  induction h generalizing front with
  | nil => exact List.forall_mem_nil _
  | @cons position blanks text token tokens hblank hne hposition hrest ih =>
    have hplace : token.position = (front ++ blanks).length := by
      rw [hposition, List.length_append, hfront]
    have hcut : front ++ (blanks ++ token.text ++ text)
        = (front ++ blanks) ++ (token.text ++ text) := by simp
    have hcut' : front ++ (blanks ++ token.text ++ text)
        = (front ++ blanks ++ token.text) ++ text := by simp
    refine List.forall_mem_cons.mpr ⟨⟨hne, ?_⟩, ?_⟩
    · rw [hcut, hplace, List.drop_left]
      exact List.prefix_append token.text text
    · rw [hcut']
      refine ih ?_
      rw [List.length_append, ← hplace]
      rfl

/-- A character that no token covers is blank. -/
theorem Laid.blank (h : Laid position tokens t) {i : Nat} {c : Char} (hc : t[i]? = some c)
    (hout : ∀ token ∈ tokens, ¬ token.Covers (position + i)) : isBlank c = true := by
  induction h generalizing i with
  | nil hblank => exact hblank c (List.mem_of_getElem? hc)
  | @cons position blanks text token tokens hblank hne hposition hrest ih =>
    rw [List.forall_mem_cons] at hout
    have hstop : token.stop = token.position + token.text.length := rfl
    by_cases hfront : i < blanks.length
    · rw [List.append_assoc, List.getElem?_append_left hfront] at hc
      exact hblank c (List.mem_of_getElem? hc)
    · by_cases hin : i < (blanks ++ token.text).length
      · rw [List.length_append] at hin
        exact absurd ⟨by omega, by omega⟩ hout.1
      · have hle := Nat.le_of_not_lt hin
        rw [List.getElem?_append_right hle] at hc
        rw [List.length_append] at hle hc
        refine ih hc ?_
        intro next hnext
        have hplace : token.stop + (i - (blanks.length + token.text.length)) = position + i := by
          omega
        rw [hplace]
        exact hout.2 next hnext

end laid

/-! ## 3. A scan that fails -/

/-- In front of the character at which the scan stops it takes the same tokens without what
follows. -/
theorem exists_of_tokensFrom_eq_error {t : Text} :
    ∀ {covered position : Nat} {fault : GrammarFault},
    tokensFrom covered position t = .error fault →
    ∃ before c rest, t = before ++ c :: rest ∧
      fault = .unexpectedCharacter c (position + before.length) ∧
      isBlank c = false ∧ tokenLength? (c :: rest) = none ∧ covered ≤ before.length ∧
      ∃ tokens, tokensFrom covered position before = .ok tokens := by
  induction t with
  | nil =>
    intro covered position fault h
    cases h
  | cons d t ih =>
    intro covered position fault h
    have hplace : ∀ before : Text,
        position + 1 + before.length = position + (d :: before).length := by
      intro before
      rw [List.length_cons]
      omega
    cases covered with
    | succ covered =>
      obtain ⟨before, c, rest, rfl, rfl, hblank, hnone, hle, tokens, htokens⟩ := ih h
      refine ⟨d :: before, c, rest, rfl, ?_, hblank, hnone, Nat.succ_le_succ hle, tokens, htokens⟩
      rw [hplace]
    | zero =>
      rw [tokensFrom] at h
      split at h
      · rename_i hd
        obtain ⟨before, c, rest, rfl, rfl, hblank, hnone, hle, tokens, htokens⟩ := ih h
        refine ⟨d :: before, c, rest, rfl, by rw [hplace], hblank, hnone, Nat.zero_le _, tokens, ?_⟩
        rw [tokensFrom, if_pos hd]
        exact htokens
      · rename_i hd
        split at h
        · rename_i hnone
          obtain rfl := Except.error.inj h
          exact ⟨[], d, t, rfl, rfl, by simpa using hd, hnone, Nat.zero_le _, [], rfl⟩
        · rename_i kind length hlength
          cases hrest : tokensFrom (length - 1) (position + 1) t with
          | ok others =>
            rw [hrest] at h
            cases h
          | error fault' =>
            rw [hrest] at h
            obtain rfl := Except.error.inj h
            obtain ⟨before, c, rest, rfl, rfl, hblank, hnone, hle, tokens, htokens⟩ := ih hrest
            -- the token ends in front of the character, so it is there without it
            have hbefore : tokenLength? (d :: before) = some (kind, length) :=
              tokenLength?_of_append hlength (by rw [List.length_cons]; omega)
            refine ⟨d :: before, c, rest, rfl, by rw [hplace], hblank, hnone, Nat.zero_le _,
              ⟨kind, (d :: before).take length, position⟩ :: tokens, ?_⟩
            rw [tokensFrom, if_neg hd, hbefore]
            dsimp only
            rw [htokens]
            rfl

/-! ## 4. Bodies -/

/-- The places at which the readings of a body may stop: those of its tokens, and then its end. -/
def places (body : Text) (tokens : List Token) : List Nat :=
  tokens.map Token.position ++ [body.length]

/-- Tokens that a body is made of: pieces of it in order and apart from each other, with blanks
alone outside of them. -/
structure Cover (body : Text) (tokens : List Token) : Prop where
  increasing : (places body tokens).Pairwise (· < ·)
  apart : tokens.Pairwise fun token next => token.stop ≤ next.position
  piece : ∀ token ∈ tokens, token.text ≠ [] ∧
    token.text = (body.drop token.position).take token.text.length
  inside : ∀ token ∈ tokens, token.stop ≤ body.length
  blank : ∀ i c, body[i]? = some c → (∀ token ∈ tokens, ¬ token.Covers i) → isBlank c = true

/-- A character behind tokens that no token begins with. -/
structure StopsAt (body : Text) (c : Char) (place : Nat) : Prop where
  char : body[place]? = some c
  notBlank : isBlank c = false
  noMatch : ∀ m ∈ matchers, m.2 (body.drop place) = none
  before : ∃ tokens, tokenize (body.take place) = .ok tokens

theorem cover_of_tokenize {body : Text} {tokens : List Token} (h : tokenize body = .ok tokens) :
    Cover body tokens := by
  have hlaid := laid_of_tokenize h
  have hbounds := hlaid.bounds
  refine ⟨?_, hlaid.apart, ?_, ?_, ?_⟩
  · refine List.pairwise_append.mpr ⟨List.pairwise_map.mpr ?_, List.pairwise_singleton _ _, ?_⟩
    · refine hlaid.apart.imp_of_mem ?_
      intro token next htoken _ hapart
      exact (hbounds token htoken).2.1.trans_le hapart
    · simp only [List.forall_mem_map, List.forall_mem_singleton]
      intro token htoken
      have hbound := hbounds token htoken
      omega
  · intro token htoken
    obtain ⟨hne, hpiece⟩ := @Laid.piece _ _ _ hlaid [] rfl token htoken
    exact ⟨hne, List.prefix_iff_eq_take.mp hpiece⟩
  · intro token htoken
    simpa using (hbounds token htoken).2.2
  · intro i c hc hout
    exact hlaid.blank hc (by simpa using hout)

theorem stopsAt_of_tokenize {body : Text} {fault : GrammarFault}
    (h : tokenize body = .error fault) :
    ∃ c place, fault = .unexpectedCharacter c place ∧ StopsAt body c place := by
  obtain ⟨before, c, rest, rfl, rfl, hblank, hnone, -, tokens, htokens⟩ :=
    exists_of_tokensFrom_eq_error h
  refine ⟨c, 0 + before.length, rfl, ?_⟩
  rw [Nat.zero_add]
  refine ⟨by simp, hblank, ?_, tokens, ?_⟩
  · intro m hm
    have hmatch := List.findSome?_eq_none_iff.mp hnone m hm
    rw [List.drop_left]
    simpa using hmatch
  · rw [List.take_left]
    exact htokens

/-- **The scan loses nothing**: the tokens of a body are pieces of it, in order up to its end, that
do not overlap and leave out blanks alone, and if a body has no tokens, the scan has stopped behind
a part that has, at a character where no token begins. -/
theorem tokenize_covers (body : Text) :
    (∀ tokens, tokenize body = .ok tokens → Cover body tokens) ∧
    ∀ fault, tokenize body = .error fault →
      ∃ c place, fault = .unexpectedCharacter c place ∧ StopsAt body c place :=
  ⟨fun _ => cover_of_tokenize, fun _ => stopsAt_of_tokenize⟩

/-- A string whose last quote is escaped is not closed, and no token begins with its first. -/
example : tokenize "$a = 'b\\'".toList = .error (.unexpectedCharacter '\'' 5) := by
  decide +kernel

end ViewContract.Signature
