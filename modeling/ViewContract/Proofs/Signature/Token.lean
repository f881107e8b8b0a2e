/-
ViewContract.Proofs.Signature.Token — what a token is.

A token is what the matcher of its kind takes, and the scan adds nothing to that but a position. So
what holds of whatever the matchers take holds of all tokens of a body, and it is said of lexemes:

  §1 the matcher behind a token (`matched_of_tokenLength?`), and all tokens of a body
     (`forall_lexeme_of_tokenize`).
  §2 kinds with one text, which is all that their matchers look for (`TakesOnly`).
  §3 words. The lexemes of names and variables are what they look like (`worded_of_tokenize`).
-/
import ViewContract.Proofs.Signature.Reading
import ViewContract.Proofs.Text.ClassName
import ViewContract.Signature.Written

namespace ViewContract.Signature

open Text

/-! ## 1. Matchers and tokens -/

/-- A token is what the matcher of its kind takes. -/
theorem exists_matcher_of_tokenLength? {t : Text} {kind : TokenKind} {length : Nat}
    (h : tokenLength? t = some (kind, length)) :
    ∃ length?, (kind, length?) ∈ matchers ∧ length? t = some length := by
  obtain ⟨⟨_, length?⟩, hmem, hentry⟩ := List.exists_of_findSome?_eq_some h
  obtain ⟨_, hlength, heq⟩ := Option.map_eq_some_iff.mp hentry
  obtain ⟨rfl, rfl⟩ := Prod.mk.inj heq
  exact ⟨length?, hmem, hlength⟩

/-- What a text begins with, as the matcher of the kind sees it. -/
inductive Matched (t : Text) (n : Nat) : TokenKind → Prop where
  | variableName (h : variableLength? t = some n) : Matched t n .variableName
  | dollar (h : dollarLength? t = some n) : Matched t n .dollar
  | number (h : numberLength? t = some n) : Matched t n .number
  | string (h : stringLength? t = some n) : Matched t n .string
  | name (h : classNameLength? t = some n) : Matched t n .name
  | doubleColon (h : doubleColonLength? t = some n) : Matched t n .doubleColon
  | arrow (h : arrowLength? t = some n) : Matched t n .arrow
  | punctuation (h : punctuationLength? t = some n) : Matched t n .punctuation

theorem matched_of_tokenLength? {t : Text} {kind : TokenKind} {n : Nat}
    (h : tokenLength? t = some (kind, n)) : Matched t n kind := by
  obtain ⟨length?, hmem, hlength⟩ := exists_matcher_of_tokenLength? h
  simp only [matchers, List.mem_cons, Prod.mk.injEq, List.not_mem_nil, or_false] at hmem
  rcases hmem with ⟨rfl, rfl⟩ | ⟨rfl, rfl⟩ | ⟨rfl, rfl⟩ | ⟨rfl, rfl⟩ | ⟨rfl, rfl⟩ | ⟨rfl, rfl⟩ |
    ⟨rfl, rfl⟩ | ⟨rfl, rfl⟩
  · exact .variableName hlength
  · exact .dollar hlength
  · exact .number hlength
  · exact .string hlength
  · exact .name hlength
  · exact .doubleColon hlength
  · exact .arrow hlength
  · exact .punctuation hlength

section lexemes

variable {P : Lexeme → Prop}
  (hP : ∀ {t kind length}, tokenLength? t = some (kind, length) → P ⟨kind, t.take length⟩)

include hP

theorem forall_lexeme_of_tokensFrom {t : Text} : ∀ {covered position : Nat} {tokens : List Token},
    tokensFrom covered position t = .ok tokens → ∀ token ∈ tokens, P token.lexeme := by
  induction t with
  | nil =>
    intro covered position tokens h
    obtain rfl := Except.ok.inj h
    exact fun token htoken => absurd htoken List.not_mem_nil
  | cons c t ih =>
    intro covered position tokens h
    cases covered with
    | succ covered => exact ih h
    | zero =>
      rw [tokensFrom] at h
      split at h
      · exact ih h
      · split at h
        · exact nomatch h
        · rename_i kind length hlength
          obtain ⟨others, hothers, h⟩ := exists_of_bind_eq_ok h
          obtain rfl := Except.ok.inj h
          intro token htoken
          rcases List.mem_cons.mp htoken with rfl | htoken
          · exact hP hlength
          · exact ih hothers token htoken

/-- What holds of whatever a matcher takes holds of every token of a body. -/
theorem forall_lexeme_of_tokenize {body : Text} {tokens : List Token}
    (h : tokenize body = .ok tokens) : ∀ token ∈ tokens, P token.lexeme :=
  forall_lexeme_of_tokensFrom hP h

end lexemes

/-! ## 2. Kinds with one text -/

/-- A matcher takes one text, wherever a text begins with it, and nothing else. -/
structure TakesOnly (length? : Text → Option Nat) (text : Text) : Prop where
  self : ∀ rest, length? (text ++ rest) = some text.length
  begins : ∀ {t n}, length? t = some n → text <+: t

section fixed

variable {length? : Text → Option Nat} {text t : Text} {n : Nat}

theorem TakesOnly.length_eq (hfixed : TakesOnly length? text) (h : length? t = some n) :
    n = text.length := by
  obtain ⟨rest, rfl⟩ := hfixed.begins h
  rw [hfixed.self] at h
  exact (Option.some.inj h).symm

theorem TakesOnly.take_eq (hfixed : TakesOnly length? text) (h : length? t = some n) :
    t.take n = text := by
  rw [hfixed.length_eq h]
  exact (List.prefix_iff_eq_take.mp (hfixed.begins h)).symm

end fixed

theorem takesOnly_dollar : TakesOnly dollarLength? "$".toList where
  self _ := rfl
  begins := by
    intro t n h
    rw [dollarLength?.eq_def] at h
    split at h
    · exact ⟨_, rfl⟩
    · cases h

theorem takesOnly_doubleColon : TakesOnly doubleColonLength? "::".toList where
  self _ := rfl
  begins := by
    intro t n h
    rw [doubleColonLength?.eq_def] at h
    split at h
    · exact ⟨_, rfl⟩
    · cases h

theorem takesOnly_arrow : TakesOnly arrowLength? "=>".toList where
  self _ := rfl
  begins := by
    intro t n h
    rw [arrowLength?.eq_def] at h
    split at h
    · exact ⟨_, rfl⟩
    · cases h

/-! ## 3. Words -/

/-- A lexeme whose text is a name or a variable if its kind is. -/
structure Lexeme.Worded (l : Lexeme) : Prop where
  variableName : l.kind = .variableName → ∃ name, isIdentifier name = true ∧ l = .ofName name
  className : l.kind = .name → ClassName l.text

/-- A variable is a dollar sign and an identifier. -/
theorem exists_name_of_variableLength? {t : Text} {n : Nat} (h : variableLength? t = some n) :
    ∃ name, isIdentifier name = true ∧ t.take n = '$' :: name := by
  rw [variableLength?.eq_def] at h
  split at h
  · obtain ⟨name, hname, rfl⟩ := Option.map_eq_some_iff.mp h
    obtain ⟨hidentifier, rest, rfl⟩ := isIdentifier_of_leadingIdentifier? hname
    exact ⟨name, hidentifier, by rw [List.take_succ_cons, List.take_left]⟩
  · cases h

theorem worded_of_tokenLength? {t : Text} {kind : TokenKind} {length : Nat}
    (h : tokenLength? t = some (kind, length)) : Lexeme.Worded ⟨kind, t.take length⟩ := by
  constructor
  · rintro rfl
    cases matched_of_tokenLength? h with
    | variableName h =>
      obtain ⟨name, hname, htake⟩ := exists_name_of_variableLength? h
      exact ⟨name, hname, by rw [htake]; rfl⟩
  · rintro rfl
    cases matched_of_tokenLength? h with
    | name h => exact className_take h

theorem worded_of_tokenize {body : Text} {tokens : List Token} (h : tokenize body = .ok tokens) :
    ∀ token ∈ tokens, token.lexeme.Worded :=
  forall_lexeme_of_tokenize worded_of_tokenLength? h

end ViewContract.Signature
