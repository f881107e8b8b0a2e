/-
ViewContract.Proofs.Template.Passage — how the scan of a template gets over a text.

The scan is one recursion over characters with five values to carry. To reason about a text
of many lexemes it is cut: `Passes` says that the scan gets from one place to another over a
piece of text and yields certain tokens on the way, whatever position the piece has.
Passages are put together by `Passes.trans`, so each kind of token needs one lemma:

  §1 tokens in front of a scan.
  §2 passages, and the passage of a single step (`passes_step`).
  §3 the steps by place: text without an opening, an opening, the end of a tag, and a
     lexeme in a tag.
  §4 how a template is prepared before the scan.

What follows a piece is part of the statement, since a lexeme may be longer in front of
other text. What stands before it is a parameter too: a number does not begin after a point,
and a line statement begins only at the start of a line.
-/
import ViewContract.Proofs.Text.Breaks
import ViewContract.Proofs.Text.Lines
import ViewContract.Template.Token

namespace ViewContract.Template

open ViewContract.Text

/-! ## 1. Tokens in front of a scan -/

/-- Whether a token is kept: an empty text and an empty comment are none. -/
def isKept (t : Token) : Bool :=
  !(t.text.isEmpty && (t.kind = .data || t.kind = .comment))

theorem after_eq (s : Scan) (tokens : List Token) :
    s.after tokens = { s with tokens := tokens.filter isKept ++ s.tokens } :=
  rfl

@[simp] theorem after_nil (s : Scan) : s.after [] = s :=
  rfl

@[simp] theorem after_after (s : Scan) (xs ys : List Token) :
    (s.after ys).after xs = s.after (xs ++ ys) := by
  simp [after_eq]

@[simp] theorem after_filter (s : Scan) (xs : List Token) :
    s.after (xs.filter isKept) = s.after xs := by
  simp [after_eq]

/-! ## 2. Passages -/

/-- The scan gets over the piece `t` in front of `rest`: from `line` and `place` to `line'`
and `place'`, with some tokens on the way. -/
def Passes (env : Environment) (before : Option Char) (rest : Text) (line : Nat) (place : Place)
    (t : Text) (tokens : List Token) (line' : Nat) (place' : Place) : Prop :=
  ∀ position, scanFrom env before line position 0 place (t ++ rest)
    = (scanFrom env (t.getLast?.or before) line' (position + t.length) 0 place' rest).after tokens

section passages

variable {env : Environment} {before : Option Char} {rest : Text} {line line' line'' : Nat}
  {place place' place'' : Place}

theorem passes_nil : Passes env before rest line place [] [] line place := by
  intro position
  simp

theorem getLast?_append_or (t u : Text) (before : Option Char) :
    (t ++ u).getLast?.or before = u.getLast?.or (t.getLast?.or before) := by
  rw [List.getLast?_append, Option.or_assoc]

/-- One passage after another. -/
theorem Passes.trans {t u : Text} {xs ys : List Token}
    (h : Passes env before (u ++ rest) line place t xs line' place')
    (h' : Passes env (t.getLast?.or before) rest line' place' u ys line'' place'') :
    Passes env before rest line place (t ++ u) (xs ++ ys) line'' place'' := by
  intro position
  rw [List.append_assoc, h, h', after_after, getLast?_append_or, List.length_append, Nat.add_assoc]

/-- The characters that a token covers are passed over. -/
theorem scanFrom_covered (t : Text) : ∀ (before : Option Char) (position : Nat),
    scanFrom env before line position t.length place (t ++ rest)
      = scanFrom env (t.getLast?.or before) line (position + t.length) 0 place rest := by
  induction t with
  | nil => intro before position; simp
  | cons c t ih =>
    intro before position
    have hlast : (c :: t).getLast?.or before = t.getLast?.or (some c) := by
      rw [← List.singleton_append, getLast?_append_or]
      rfl
    rw [List.length_cons, List.cons_append, scanFrom, ih, hlast,
      show position + (t.length + 1) = position + 1 + t.length by omega]

/-- A step that takes a piece is a passage over it. -/
theorem passes_step {c : Char} {t : Text} {tokens : List Token}
    (h : ∀ position, step env before line position place c (t ++ rest)
      = .ok { tokens, length := t.length + 1, place := place' }) :
    Passes env before rest line place (c :: t) tokens (lineAfter line tokens) place' := by
  intro position
  have hturn : turnAt env before position c (t ++ rest) 3 line place
      = { found := ({} : Scan).after tokens,
          onward := some ⟨t.length + 1, lineAfter line tokens, place'⟩ } := by
    simp [turnAt, h position]
  have hlast : (c :: t).getLast?.or before = t.getLast?.or (some c) := by
    rw [← List.singleton_append, getLast?_append_or]
    rfl
  have hfound : (({} : Scan).after tokens).tokens = tokens.filter isKept := by simp [after_eq]
  rw [List.cons_append, scanFrom, hturn]
  simp only [Nat.add_sub_cancel, hfound, after_filter]
  rw [scanFrom_covered, hlast, List.length_cons,
    show position + (t.length + 1) = position + 1 + t.length by omega]

/-! ## 3. Steps -/

/-- A character of text at which nothing opens is kept for the next token. -/
theorem passes_text {c : Char} {read : Text} (h : opening? env before (c :: rest) = none) :
    Passes env before rest line (.text read) [c] [] line (.text (c :: read)) := by
  refine passes_step fun position => ?_
  simp [step, stepInText, h]

/-- An opening ends the text before it. -/
theorem passes_opening {t read : Text} {kind : TokenKind} {sign : Option Char} (ht : t ≠ [])
    (h : opening? env before (t ++ rest) = some ⟨kind, t.length, sign⟩) :
    Passes env before rest line (.text read) t
      [⟨line, .data, keptText read sign⟩, ⟨line + lineFeeds read, kind, t⟩]
      (line + lineFeeds read + lineFeeds t) (.ofOpening kind) := by
  obtain ⟨c, t, rfl⟩ := List.exists_cons_of_ne_nil ht
  refine passes_step fun position => ?_
  rw [List.cons_append] at h
  simp [step, stepInText, h]

variable {kind : TagKind} {due due' : List Char}

/-- The end of a tag. -/
theorem passes_tagEnd {t : Text} {token : TokenKind} (ht : t ≠ [])
    (h : tagEnd? env kind (t ++ rest) = some (token, t.length)) :
    Passes env before rest line (.tag kind []) t [⟨line, token, t⟩] (line + lineFeeds t)
      (.text []) := by
  obtain ⟨c, t, rfl⟩ := List.exists_cons_of_ne_nil ht
  refine passes_step fun position => ?_
  rw [List.cons_append] at h
  simp [step, stepInTag, h]

/-- A lexeme inside a tag. -/
theorem passes_lexeme {t : Text} {token : TokenKind} (ht : t ≠ [])
    (hend : due = [] → tagEnd? env kind (t ++ rest) = none)
    (hlex : lexeme? before (t ++ rest) = some (token, t.length))
    (hdue : (if token = .operator then dueAfter due t else .ok due) = .ok due') :
    Passes env before rest line (.tag kind due) t [⟨line, token, t⟩] (line + lineFeeds t)
      (.tag kind due') := by
  obtain ⟨c, t, rfl⟩ := List.exists_cons_of_ne_nil ht
  refine passes_step fun position => ?_
  rw [List.cons_append] at hend hlex
  have hnone : (if due.isEmpty then tagEnd? env kind (c :: (t ++ rest)) else none) = none := by
    cases due with
    | nil => exact hend rfl
    | cons => rfl
  have htake : (c :: (t ++ rest)).take (t.length + 1) = c :: t := by simp
  simp only [step, stepInTag, hnone, hlex, List.length_cons, htake]
  split at hdue
  · rename_i hop
    simp [hop, hdue, bind, Except.bind, pure, Except.pure]
  · rename_i hop
    obtain rfl := Except.ok.inj hdue
    simp [hop, bind, Except.bind, pure, Except.pure]

end passages

/-! ## 4. Prepared text -/

theorem unifyLineFeeds_cons {c : Char} {rest : Text} (h : c = '\r' → rest.head? ≠ some '\n') :
    unifyLineFeeds (c :: rest) = (if c = '\r' then '\n' else c) :: unifyLineFeeds rest := by
  refine unifyLineFeeds_single fun others hc hrest => h hc ?_
  rw [hrest]
  rfl

theorem unifyLineFeeds_eq_nil {t : Text} (h : unifyLineFeeds t = []) : t = [] := by
  cases t with
  | nil => rfl
  | cons c rest =>
    rw [unifyLineFeeds, mergeReturns.eq_def] at h
    split at h
    · assumption
    · cases h
    · cases h

/-- A character is prepared by itself, unless it is the line feed at the end. -/
theorem prepare_cons {c : Char} {rest : Text} (h : c = '\r' → rest.head? ≠ some '\n')
    (hend : rest = [] → (if c = '\r' then '\n' else c) ≠ '\n') :
    prepare (c :: rest) = (if c = '\r' then '\n' else c) :: prepare rest := by
  rw [prepare, prepare, unifyLineFeeds_cons h]
  cases hrest : unifyLineFeeds rest with
  | nil => simpa using hend (unifyLineFeeds_eq_nil hrest)
  | cons d u =>
    simp only [List.getLast?_cons_cons]
    split <;> rfl

/-- A text without carriage returns and a line feed at its end is prepared as it is. -/
theorem prepare_append {t : Text} (hreturn : '\r' ∉ t) (hlast : t.getLast? ≠ some '\n')
    (rest : Text) : prepare (t ++ rest) = t ++ prepare rest := by
  induction t with
  | nil => rfl
  | cons c t ih =>
    rw [List.mem_cons, not_or] at hreturn
    have hc : c ≠ '\r' := fun h => hreturn.1 h.symm
    have hlater : t.getLast? ≠ some '\n' := by
      cases t with
      | nil => exact nofun
      | cons d t => rwa [List.getLast?_cons_cons] at hlast
    have hend : t ++ rest = [] → (if c = '\r' then '\n' else c) ≠ '\n' := by
      intro hnil
      rw [(List.append_eq_nil_iff.mp hnil).1] at hlast
      rw [if_neg hc]
      rintro rfl
      exact hlast rfl
    rw [List.cons_append, prepare_cons (fun h => absurd h hc) hend, if_neg hc, ih hreturn.2 hlater,
      List.cons_append]

theorem prepare_eq_self {t : Text} (hreturn : '\r' ∉ t) (hlast : t.getLast? ≠ some '\n') :
    prepare t = t := by
  have h := prepare_append hreturn hlast []
  rw [List.append_nil] at h
  rw [h, show prepare [] = [] from rfl, List.append_nil]

/-- Two texts are unified apart, unless a line feed opens the second. -/
theorem unifyLineFeeds_append {t : Text} (ht : t.head? ≠ some '\n') (u : Text) :
    unifyLineFeeds (u ++ t) = unifyLineFeeds u ++ unifyLineFeeds t := by
  rw [unifyLineFeeds, mergeReturns_append ht, List.map_append, unifyLineFeeds, unifyLineFeeds]

/-- A text without carriage returns is left as it is. -/
theorem unifyLineFeeds_append_left {t : Text} (hreturn : '\r' ∉ t) (rest : Text) :
    unifyLineFeeds (t ++ rest) = t ++ unifyLineFeeds rest := by
  induction t with
  | nil => rfl
  | cons c t ih =>
    rw [List.mem_cons, not_or] at hreturn
    have hc : c ≠ '\r' := fun h => hreturn.1 h.symm
    rw [List.cons_append, unifyLineFeeds_cons fun h => absurd h hc, if_neg hc, ih hreturn.2,
      List.cons_append]

theorem unifyLineFeeds_eq_self {t : Text} (hreturn : '\r' ∉ t) : unifyLineFeeds t = t := by
  have h := unifyLineFeeds_append_left hreturn []
  rw [List.append_nil] at h
  rw [h, show unifyLineFeeds [] = [] from rfl, List.append_nil]

/-- One line feed at the end is dropped. -/
theorem prepare_lineFeed {t : Text} (hreturn : '\r' ∉ t) : prepare (t ++ ['\n']) = t := by
  have hunified : unifyLineFeeds (t ++ ['\n']) = t ++ ['\n'] :=
    unifyLineFeeds_eq_self fun h => (List.mem_append.mp h).elim hreturn (by decide)
  rw [prepare, hunified, List.getLast?_concat, if_pos rfl, List.dropLast_concat]

end ViewContract.Template
