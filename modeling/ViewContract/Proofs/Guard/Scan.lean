/-
ViewContract.Proofs.Guard.Scan — the tokens of guards.

The statements of guards stand one on a line, and each but the first takes away the line feed
before it. So the scan of them yields the tokens of their tags and no text between them:

  §1 the tokens of a tag that mean something: its chunks without the blanks.
  §2 the passage over guards, wherever in a template they stand (`passes_guards`).
  §3 what each guard means (`filter_statementTokens`), and what the text of guards does not
     hold (`plain_statements`).

§2 leaves open what is read before the first guard, since guards may follow other text. §3 is
about the two things that are changed when a template is prepared for the scan: carriage
returns, and a line feed at the end.
-/
import ViewContract.Proofs.Guard.Tags
import ViewContract.Template.Node

namespace ViewContract.Template

open ViewContract.Text

/-! ## 1. Tokens with a meaning -/

/-- Whether a token gets into the scan and has a meaning for the nodes. -/
def isRead (t : Token) : Bool :=
  isMeaningful t && isKept t

/-- A chunk as a token. -/
def Chunk.token (line : Nat) (c : Chunk) : Token :=
  ⟨line, c.kind, c.text⟩

/-- The tokens of a tag without the blanks. -/
def Tag.meant (δ : Delimiters) (line : Nat) (g : Tag) : List Token :=
  ⟨line, g.kind.startToken, g.kind.startMark δ ++ signText g.trim⟩ ::
    g.chunks.map (Chunk.token line) ++ [⟨line, g.kind.endToken, g.kind.endMark δ⟩]

theorem isRead_of_written {line : Nat} {kind : TokenKind} {t : Text} (h : kind.IsWritten) :
    isRead ⟨line, kind, t⟩ = true := by
  rcases h with rfl | rfl | rfl | rfl | rfl <;> simp [isRead, isMeaningful, isKept]

theorem isRead_startToken {line : Nat} {t : Text} (kind : TagKind) :
    isRead ⟨line, kind.startToken, t⟩ = true := by
  cases kind <;> simp [isRead, isMeaningful, isKept, TagKind.startToken]

theorem isRead_endToken {line : Nat} {t : Text} (kind : TagKind) :
    isRead ⟨line, kind.endToken, t⟩ = true := by
  cases kind <;> simp [isRead, isMeaningful, isKept, TagKind.endToken]

theorem filter_chunk {c : Chunk} (h : c.kind.IsWritten) (line : Nat) :
    (c.tokens line).filter isRead = [c.token line] := by
  have hc : isRead ⟨line, c.kind, c.text⟩ = true := isRead_of_written h
  rw [Chunk.tokens]
  split
  · rw [List.filter_cons_of_neg (by simp [isRead, isMeaningful]), List.filter_cons_of_pos hc]
    rfl
  · rw [List.filter_cons_of_pos hc]
    rfl

theorem fits_of_mem {t : Text} {due : List Char} {cs : List Chunk} (h : FitTogether t due cs) :
    ∀ c ∈ cs, ∃ u, c.Fits u := by
  induction cs generalizing due with
  | nil => exact fun c hc => absurd hc List.not_mem_nil
  | cons d cs ih =>
    obtain ⟨hd, due', _, hcs⟩ := h
    intro c hc
    rcases List.mem_cons.mp hc with rfl | hc
    · exact ⟨_, hd⟩
    · exact ih hcs c hc

theorem filter_chunks {cs : List Chunk} (h : ∀ c ∈ cs, c.kind.IsWritten) (line : Nat) :
    (cs.flatMap (Chunk.tokens line)).filter isRead = cs.map (Chunk.token line) := by
  induction cs with
  | nil => rfl
  | cons c cs ih =>
    rw [List.flatMap_cons, List.filter_append, filter_chunk (h c List.mem_cons_self), List.map_cons,
      ih fun d hd => h d (List.mem_cons_of_mem c hd)]
    rfl

theorem Tag.Fits.written {g : Tag} (hg : g.Fits) : ∀ c ∈ g.chunks, ∃ u, c.Fits u :=
  fits_of_mem (hg.together [])

/-- Of the tokens of a tag the blanks go. -/
theorem filter_tokens {g : Tag} (hg : ∀ c ∈ g.chunks, c.kind.IsWritten) (δ : Delimiters)
    (line : Nat) : (g.tokens δ line).filter isRead = g.meant δ line := by
  rw [Tag.tokens, List.filter_append, List.filter_cons_of_pos (isRead_startToken g.kind),
    filter_chunks hg, List.filter_cons_of_neg (by simp [isRead, isMeaningful]),
    List.filter_cons_of_pos (isRead_endToken g.kind)]
  rfl

/-- Of the text before a tag nothing is left either, if the tag takes it away. -/
theorem filter_tag {g : Tag} (hg : g.Fits) (δ : Delimiters) (line : Nat) {read : Text}
    (hread : keptText read (signOf g.trim) = []) :
    (g.tokensAfter δ line read).filter isRead = g.meant δ (line + lineFeeds read) := by
  have hdata : ¬ isRead ⟨line, .data, keptText read (signOf g.trim)⟩ = true := by
    simp [isRead, isKept, hread]
  have hkinds : ∀ c ∈ g.chunks, c.kind.IsWritten := by
    intro c hc
    obtain ⟨u, hu⟩ := hg.written c hc
    exact hu.kind
  rw [Tag.tokensAfter, List.filter_cons_of_neg hdata, filter_tokens hkinds]

/-! ## 2. The passage over guards -/

/-- The tokens of tags of which nothing stands between. -/
def tagTokens (δ : Delimiters) (line : Nat) (tags : List Tag) : List Token :=
  tags.flatMap (Tag.tokensAfter δ line [])

/-- The tokens of a guard that stands after some text. -/
def statementTokens (δ : Delimiters) (line : Nat) (read : Text) (trim : Bool) (g : Guard) :
    List Token :=
  Tag.tokensAfter δ line read ⟨.block, trim, .word "if".toList :: g.conditionChunks⟩ ++
    tagTokens δ (line + lineFeeds read) [g.actionTag, ⟨.block, false, [.word "endif".toList]⟩]

/-- The text that is read before a guard, where `count` others stand before it. -/
def readBefore (count : Nat) (read : Text) : Text :=
  if 0 < count then '\n' :: read else read

/-- The tokens of guards after `count` others, where `read` is the text before them. -/
def guardTokens (δ : Delimiters) : Nat → Nat → Text → List Guard → List Token
  | _, _, _, [] => []
  | line, count, read, g :: rest =>
    statementTokens δ line (readBefore count read) (0 < count) g ++
      guardTokens δ (line + lineFeeds (readBefore count read)) (count + 1) [] rest

section passages

variable {env : Environment} (henv : env.Regular) {before : Option Char} {rest : Text}
  {line : Nat}

include henv

theorem passes_tags {tags : List Tag} (htags : ∀ g ∈ tags, g.Fits) :
    Passes env before rest line (.text []) (tags.flatMap (Tag.source env.delimiters))
      (tagTokens env.delimiters line tags) line (.text []) := by
  induction tags generalizing before with
  | nil => exact passes_nil
  | cons g tags ih =>
    have hfirst : Passes env before (tags.flatMap (Tag.source env.delimiters) ++ rest) line
        (.text []) (g.source env.delimiters) (g.tokensAfter env.delimiters line []) line
        (.text []) :=
      passes_tag henv (htags g List.mem_cons_self)
    exact hfirst.trans (ih fun h hh => htags h (List.mem_cons_of_mem g hh))

theorem passes_guard {g : Guard} (hg : g.Writable) {trim : Bool} {t read : Text}
    (h : g.statement env.delimiters trim = .ok t) :
    Passes env before rest line (.text read) t (statementTokens env.delimiters line read trim g)
      (line + lineFeeds read) (.text []) := by
  rw [Guard.statement_eq hg h, Guard.tags, List.flatMap_cons]
  have hfits : ∀ tag ∈ g.tags trim, tag.Fits := fun tag => Guard.fits_of_mem_tags hg
  exact (passes_tag henv (hfits _ List.mem_cons_self)).trans
    (passes_tags henv fun tag htag => hfits tag (List.mem_cons_of_mem _ htag))

/-- The scan gets over guards. -/
theorem passes_guards {gs : List Guard} (hgs : ∀ g ∈ gs, g.Writable) {count : Nat}
    {t read : Text} (h : Guard.statementsAfter env.delimiters count gs = .ok t)
    (before : Option Char) :
    ∃ line', Passes env before rest line (.text read) t
      (guardTokens env.delimiters line count read gs) line'
      (.text (if gs.isEmpty then read else [])) := by
  induction gs generalizing before line count t read with
  | nil =>
    obtain rfl := Except.ok.inj h
    exact ⟨line, passes_nil⟩
  | cons g gs ih =>
    cases hstatement : g.statement env.delimiters (0 < count) with
    | error fault => simp [Guard.statementsAfter, hstatement, bind, Except.bind] at h
    | ok statement =>
      cases hothers : Guard.statementsAfter env.delimiters (count + 1) gs with
      | error fault => simp [Guard.statementsAfter, hstatement, hothers, bind, Except.bind] at h
      | ok others =>
        simp only [Guard.statementsAfter, hstatement, hothers, bind, Except.bind, pure, Except.pure,
          Except.ok.injEq] at h
        -- the line feed before the guard is text that is read
        have hfeed : ∀ {rest : Text}, Passes env before rest line (.text read)
            (if 0 < count then ['\n'] else []) [] line (.text (readBefore count read)) := by
          intro rest
          rw [readBefore]
          split
          · exact passes_text (opening?_lineFeed henv rest)
          · exact passes_nil
        obtain ⟨line', hrest⟩ := ih (fun g' hg' => hgs g' (List.mem_cons_of_mem g hg')) hothers
          (((if 0 < count then ['\n'] else []) ++ statement).getLast?.or before)
        rw [ite_self] at hrest
        refine ⟨line', ?_⟩
        rw [← h, guardTokens, ← List.nil_append (statementTokens _ _ _ _ _)]
        exact (hfeed.trans (passes_guard henv (hgs g List.mem_cons_self) hstatement)).trans hrest

end passages

/-! ## 3. What guards mean and hold -/

theorem filter_tags {tags : List Tag} (htags : ∀ g ∈ tags, g.Fits) (δ : Delimiters) (line : Nat) :
    (tagTokens δ line tags).filter isRead = tags.flatMap (Tag.meant δ line) := by
  induction tags with
  | nil => rfl
  | cons g tags ih =>
    have hempty : keptText [] (signOf g.trim) = [] := by
      cases g.trim <;> rfl
    rw [tagTokens, List.flatMap_cons, List.filter_append,
      filter_tag (htags g List.mem_cons_self) δ line hempty, ← tagTokens,
      ih fun h hh => htags h (List.mem_cons_of_mem g hh)]
    rfl

/-- A guard without text before it means the tokens of its tags. -/
theorem filter_statementTokens {g : Guard} (hg : g.Writable) (δ : Delimiters) (line count : Nat) :
    (statementTokens δ line (readBefore count []) (0 < count) g).filter isRead
      = (g.tags (0 < count)).flatMap
          (Tag.meant δ (line + lineFeeds (readBefore count []))) := by
  have hfits : ∀ tag ∈ g.tags (0 < count), tag.Fits := fun tag => Guard.fits_of_mem_tags hg
  have hread : keptText (readBefore count []) (signOf (0 < count)) = [] := by
    rw [readBefore]
    split
    · rename_i hcount
      rw [decide_eq_true hcount]
      decide
    · rename_i hcount
      rw [decide_eq_false hcount]
      rfl
  rw [statementTokens, List.filter_append, filter_tag (hfits _ List.mem_cons_self) δ line hread,
    filter_tags fun tag htag => hfits tag (List.mem_cons_of_mem _ htag)]
  rfl

/-- A tag stands on one line. -/
theorem Tag.Fits.oneLine {g : Tag} (hg : g.Fits) {env : Environment} (henv : env.Regular) :
    ∀ c ∈ g.source env.delimiters, c ≠ '\n' ∧ c ≠ '\r' := by
  have hmarks := henv.oneLine g.kind
  intro c hc
  simp only [Tag.source, sources, List.mem_append, List.mem_cons, List.mem_flatMap] at hc
  rcases hc with (hc | hc) | ⟨d, hd, hc⟩ | rfl | hc
  · exact hmarks c (List.mem_append_left _ hc)
  · cases htrim : g.trim <;> simp [signText, htrim] at hc
    subst hc
    decide
  · obtain ⟨u, hu⟩ := hg.written d hd
    rw [Chunk.source] at hc
    split at hc
    · rcases List.mem_cons.mp hc with rfl | hc
      · decide
      · exact hu.oneLine c hc
    · exact hu.oneLine c hc
  · decide
  · exact hmarks c (List.mem_append_right _ hc)

/-- The text of guards has no carriage return, and no line feed at its end. -/
theorem plain_statements {env : Environment} (henv : env.Regular) {gs : List Guard}
    (hgs : ∀ g ∈ gs, g.Writable) {count : Nat} {t : Text}
    (h : Guard.statementsAfter env.delimiters count gs = .ok t) :
    '\r' ∉ t ∧ t.getLast? ≠ some '\n' := by
  induction gs generalizing count t with
  | nil =>
    obtain rfl := Except.ok.inj h
    exact ⟨List.not_mem_nil, nofun⟩
  | cons g gs ih =>
    cases hstatement : g.statement env.delimiters (0 < count) with
    | error fault => simp [Guard.statementsAfter, hstatement, bind, Except.bind] at h
    | ok statement =>
      cases hothers : Guard.statementsAfter env.delimiters (count + 1) gs with
      | error fault => simp [Guard.statementsAfter, hstatement, hothers, bind, Except.bind] at h
      | ok others =>
        simp only [Guard.statementsAfter, hstatement, hothers, bind, Except.bind, pure, Except.pure,
          Except.ok.injEq] at h
        have hg := hgs g List.mem_cons_self
        obtain ⟨hreturn, hlast⟩ := ih (fun g' hg' => hgs g' (List.mem_cons_of_mem g hg')) hothers
        have hplain : ∀ c ∈ statement, c ≠ '\n' ∧ c ≠ '\r' := by
          rw [Guard.statement_eq hg hstatement]
          intro c hc
          obtain ⟨tag, htag, hc⟩ := List.mem_flatMap.mp hc
          exact (Guard.fits_of_mem_tags hg htag).oneLine henv c hc
        have hne : statement ≠ [] := by
          rw [Guard.statement_eq hg hstatement]
          simp [Guard.tags, Tag.source]
        rw [← h]
        constructor
        · intro hmem
          rcases List.mem_append.mp hmem with hmem | hmem
          · rcases List.mem_append.mp hmem with hmem | hmem
            · split at hmem <;> revert hmem <;> decide
            · exact (hplain _ hmem).2 rfl
          · exact hreturn hmem
        · intro hmem
          rw [List.getLast?_append, List.getLast?_append] at hmem
          rcases Option.or_eq_some_iff.mp hmem with hmem | ⟨-, hmem⟩
          · exact hlast hmem
          · rcases Option.or_eq_some_iff.mp hmem with hmem | ⟨hnone, -⟩
            · exact (hplain _ (List.mem_of_getLast? hmem)).1 rfl
            · exact hne (List.getLast?_eq_none_iff.mp hnone)

end ViewContract.Template
