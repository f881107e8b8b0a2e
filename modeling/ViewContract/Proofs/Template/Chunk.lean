/-
ViewContract.Proofs.Template.Chunk — tags as chunks.

A tag is cut into chunks, each one lexeme with the blank before it, if there is one. `Fits`
says that a chunk is read as its lexeme in front of what follows it; `FitTogether` folds that
along the chunks of a tag and keeps account of the brackets. From it follows that the scan
gets over a whole tag with the expected tokens (`passes_tag`):

  §1 chunks and the tags made of them.
  §2 the passage over one chunk and over several.
  §3 the passage over a tag.

The blank stands in front of its lexeme, not behind, so that the last chunk of a tag leaves
the blank before the end mark to the tag.
-/
import ViewContract.Proofs.Template.Marks
import ViewContract.Proofs.Template.Passage

namespace ViewContract.Template

open ViewContract.Text

/-! ## 1. Chunks and tags -/

/-- A lexeme with the blank before it, if there is one. -/
structure Chunk where
  spaced : Bool
  kind : TokenKind
  text : Text

/-- A chunk as template text. -/
def Chunk.source (c : Chunk) : Text :=
  if c.spaced then ' ' :: c.text else c.text

/-- The tokens of a chunk. -/
def Chunk.tokens (line : Nat) (c : Chunk) : List Token :=
  if c.spaced then [⟨line, .blank, [' ']⟩, ⟨line, c.kind, c.text⟩] else [⟨line, c.kind, c.text⟩]

/-- Chunks as template text. -/
def sources (cs : List Chunk) : Text :=
  cs.flatMap Chunk.source

@[simp] theorem sources_nil : sources [] = [] :=
  rfl

@[simp] theorem sources_cons (c : Chunk) (cs : List Chunk) :
    sources (c :: cs) = c.source ++ sources cs :=
  rfl

theorem sources_append (cs ds : List Chunk) : sources (cs ++ ds) = sources cs ++ sources ds :=
  List.flatMap_append

/-- A tag of a guard. -/
structure Tag where
  kind : TagKind
  trim : Bool
  chunks : List Chunk

/-- A tag as template text. -/
def Tag.source (δ : Delimiters) (g : Tag) : Text :=
  g.kind.startMark δ ++ signText g.trim ++ (sources g.chunks ++ ' ' :: g.kind.endMark δ)

/-- The tokens of a tag. -/
def Tag.tokens (δ : Delimiters) (line : Nat) (g : Tag) : List Token :=
  ⟨line, g.kind.startToken, g.kind.startMark δ ++ signText g.trim⟩ ::
    g.chunks.flatMap (Chunk.tokens line) ++
    [⟨line, .blank, [' ']⟩, ⟨line, g.kind.endToken, g.kind.endMark δ⟩]

/-! ## 2. Chunks that are read as they are written -/

/-- The kinds of the chunks of a guard. -/
def TokenKind.IsWritten (kind : TokenKind) : Prop :=
  kind = .name ∨ kind = .string ∨ kind = .integer ∨ kind = .float ∨ kind = .operator

/-- A chunk is read as its lexeme in front of a text. -/
structure Chunk.Fits (c : Chunk) (t : Text) : Prop where
  kind : c.kind.IsWritten
  begins : ∃ d w, c.text = d :: w ∧ beginsLexeme d = true ∧
    (d = '-' → ∃ e u, w ++ t = e :: u ∧ beginsLexeme e = true)
  oneLine : ∀ d ∈ c.text, d ≠ '\n' ∧ d ≠ '\r'
  last : c.text.getLast? ≠ some '.'
  lexeme : ∀ before, before ≠ some '.' → lexeme? before (c.text ++ t) = some (c.kind, c.text.length)

/-- The brackets that are due after a chunk. -/
def Chunk.dueAfter (due : List Char) (c : Chunk) : Except TokenCause (List Char) :=
  if c.kind = .operator then Template.dueAfter due c.text else .ok due

/-- Chunks are read one after another in front of a text, which closes all brackets. -/
def FitTogether (t : Text) : List Char → List Chunk → Prop
  | due, [] => due = []
  | due, c :: cs =>
    c.Fits (sources cs ++ t) ∧ ∃ due', c.dueAfter due = .ok due' ∧ FitTogether t due' cs

theorem not_blank_of_beginsLexeme {c : Char} (h : beginsLexeme c = true) : isBlank c = false := by
  simp only [beginsLexeme, Bool.or_eq_true, decide_eq_true_eq] at h
  rcases h with (((((h | rfl) | rfl) | rfl) | rfl) | rfl) | rfl
  · exact not_blank_of_isIdentifierPart h
  all_goals decide

theorem lineFeeds_of_not_mem {t : Text} (h : '\n' ∉ t) : lineFeeds t = 0 :=
  List.count_eq_zero.mpr h

section chunks

variable {env : Environment} (henv : env.Regular) {kind : TagKind} (hkind : kind ≠ .line)
  {before : Option Char} {rest : Text} {line : Nat} {due due' : List Char}

include henv hkind

/-- The blank in front of a lexeme. -/
theorem passes_blank {c : Char} (hc : isBlank c = false) :
    Passes env before (c :: rest) line (.tag kind due) [' '] [⟨line, .blank, [' ']⟩] line
      (.tag kind due) :=
  passes_lexeme (by simp)
    (fun _ => tagEnd?_eq_none henv hkind (.inr (by decide)) fun h => absurd h (by decide))
    (lexeme?_blank (by simpa using hc)) rfl

theorem passes_chunk {c : Chunk} (hc : c.Fits rest) (hdue : c.dueAfter due = .ok due')
    (hbefore : c.spaced = false → before ≠ some '.') :
    Passes env before rest line (.tag kind due) c.source (c.tokens line) line
      (.tag kind due') := by
  obtain ⟨d, w, htext, hd, hminus⟩ := hc.begins
  have hend : tagEnd? env kind (c.text ++ rest) = none := by
    rw [htext, List.cons_append]
    exact tagEnd?_eq_none henv hkind (.inl hd) hminus
  have hlexeme : ∀ before, before ≠ some '.' → Passes env before rest line (.tag kind due) c.text
      [⟨line, c.kind, c.text⟩] line (.tag kind due') := by
    intro before hbefore
    have h : Passes env before rest line (.tag kind due) c.text [⟨line, c.kind, c.text⟩]
        (line + lineFeeds c.text) (.tag kind due') :=
      passes_lexeme (by rw [htext]; simp) (fun _ => hend) (hc.lexeme before hbefore) hdue
    rwa [lineFeeds_of_not_mem fun hmem => (hc.oneLine _ hmem).1 rfl] at h
  rw [Chunk.source, Chunk.tokens]
  split
  · have hblank : Passes env before (c.text ++ rest) line (.tag kind due) [' ']
        [⟨line, .blank, [' ']⟩] line (.tag kind due) := by
      rw [htext, List.cons_append]
      exact passes_blank henv hkind (not_blank_of_beginsLexeme hd)
    exact hblank.trans (hlexeme _ (by simp))
  · rename_i hspaced
    exact hlexeme before (hbefore (by simpa using hspaced))

theorem passes_chunks : ∀ {cs : List Chunk} {before : Option Char} {due : List Char},
    FitTogether rest due cs →
    (∀ c cs', cs = c :: cs' → c.spaced = false → before ≠ some '.') →
    Passes env before rest line (.tag kind due) (sources cs) (cs.flatMap (Chunk.tokens line)) line
      (.tag kind [])
  | [], _, due, hfit, _ => by
    obtain rfl : due = [] := hfit
    exact passes_nil
  | c :: cs, before, due, hfit, hbefore => by
    obtain ⟨hc, due', hdue, hcs⟩ := hfit
    refine (passes_chunk henv hkind hc hdue (hbefore c cs rfl)).trans
      (passes_chunks hcs fun _ _ _ _ => ?_)
    obtain ⟨d, w, htext, _⟩ := hc.begins
    have hlast : c.source.getLast? = c.text.getLast? := by
      rw [Chunk.source]
      split
      · rw [htext, List.getLast?_cons_cons]
      · rfl
    rw [hlast]
    have := hc.last
    rw [htext, List.getLast?_cons] at this ⊢
    simpa using this

/-- The blank at the end of a tag and its end mark. -/
theorem passes_stop :
    Passes env before rest line (.tag kind []) (' ' :: kind.endMark env.delimiters)
      [⟨line, .blank, [' ']⟩, ⟨line, kind.endToken, kind.endMark env.delimiters⟩] line
      (.text []) := by
  obtain ⟨e, mark, hmark, _, hblank, _⟩ := henv.ends kind
  have hspace : Passes env before (kind.endMark env.delimiters ++ rest) line (.tag kind [])
      [' '] [⟨line, .blank, [' ']⟩] line (.tag kind []) := by
    rw [hmark, List.cons_append]
    exact passes_blank henv hkind hblank
  have hfeeds : lineFeeds (kind.endMark env.delimiters) = 0 :=
    lineFeeds_of_not_mem fun hmem =>
      (henv.oneLine kind _ (List.mem_append_right _ hmem)).1 rfl
  have hend : Passes env ([' '].getLast?.or before) rest line (.tag kind [])
      (kind.endMark env.delimiters)
      [⟨line, kind.endToken, kind.endMark env.delimiters⟩]
      (line + lineFeeds (kind.endMark env.delimiters)) (.text []) :=
    passes_tagEnd (by rw [hmark]; simp) (tagEnd?_mark henv hkind rest)
  rw [hfeeds] at hend
  exact hspace.trans hend

/-- The mark that begins a tag, where it opens. -/
theorem passes_mark {trim : Bool} {read : Text}
    (hopening : opening? env before (kind.startMark env.delimiters ++ signText trim ++ rest)
      = some ⟨kind.startToken, (kind.startMark env.delimiters ++ signText trim).length,
          signOf trim⟩) :
    Passes env before rest line (.text read) (kind.startMark env.delimiters ++ signText trim)
      [⟨line, .data, keptText read (signOf trim)⟩, ⟨line + lineFeeds read, kind.startToken,
        kind.startMark env.delimiters ++ signText trim⟩]
      (line + lineFeeds read) (.tag kind []) := by
  obtain ⟨m, mark, hmark, _⟩ := henv.starts _ (mem_tagMarks env kind)
  have hne : kind.startMark env.delimiters ++ signText trim ≠ [] := by
    rw [show kind.startMark env.delimiters = m :: mark from hmark]
    simp
  have hfeeds : lineFeeds (kind.startMark env.delimiters ++ signText trim) = 0 := by
    refine lineFeeds_of_not_mem fun hmem => ?_
    rcases List.mem_append.mp hmem with hmem | hmem
    · exact (henv.oneLine kind _ (List.mem_append_left _ hmem)).1 rfl
    · revert hmem
      cases trim <;> decide
  have hplace : Place.ofOpening kind.startToken = .tag kind [] := by
    cases kind with
    | line => exact absurd rfl hkind
    | _ => rfl
  have hpass : Passes env before rest line (.text read) _ _ _ _ := passes_opening hne hopening
  rwa [hfeeds, Nat.add_zero, hplace] at hpass

end chunks

/-! ## 3. Tags -/

/-- A tag is read as it is written: its chunks fit together, and the first of them is a word
that does not make a raw block of it. -/
structure Tag.Fits (g : Tag) : Prop where
  marked : g.kind ≠ .line
  first : ∃ c cs d w, g.chunks = c :: cs ∧ c.spaced = true ∧ c.text = d :: w ∧
    beginsLexeme d = true ∧ d ≠ 'r'
  together : ∀ t, FitTogether (' ' :: t) [] g.chunks

/-- The tokens of a tag that opens in text. -/
def Tag.tokensAfter (δ : Delimiters) (line : Nat) (read : Text) (g : Tag) : List Token :=
  ⟨line, .data, keptText read (signOf g.trim)⟩ :: g.tokens δ (line + lineFeeds read)

section tags

variable {env : Environment} (henv : env.Regular) {g : Tag} (hg : g.Fits)
  {before : Option Char} {rest : Text} {line : Nat} {read : Text}

include henv hg

theorem passes_start :
    Passes env before (sources g.chunks ++ ' ' :: rest) line (.text read)
      (g.kind.startMark env.delimiters ++ signText g.trim)
      [⟨line, .data, keptText read (signOf g.trim)⟩, ⟨line + lineFeeds read, g.kind.startToken,
        g.kind.startMark env.delimiters ++ signText g.trim⟩]
      (line + lineFeeds read) (.tag g.kind []) := by
  obtain ⟨c, cs, d, w, hchunks, hspaced, htext, hd, hr⟩ := hg.first
  have hcut : g.kind.startMark env.delimiters ++ signText g.trim ++
      (sources g.chunks ++ ' ' :: rest)
      = g.kind.startMark env.delimiters ++
        (signText g.trim ++ ' ' :: d :: (w ++ (sources cs ++ ' ' :: rest))) := by
    simp [hchunks, Chunk.source, hspaced, htext]
  refine passes_mark henv hg.marked ?_
  rw [hcut]
  exact opening?_mark henv g.kind ⟨hr, not_blank_of_beginsLexeme hd⟩

/-- The scan gets over a tag that is read as it is written. -/
theorem passes_tag :
    Passes env before rest line (.text read) (g.source env.delimiters)
      (g.tokensAfter env.delimiters line read) (line + lineFeeds read) (.text []) := by
  obtain ⟨c, cs, _, _, hfirst, hspaced, _⟩ := hg.first
  have hcut : sources g.chunks ++ ' ' :: g.kind.endMark env.delimiters ++ rest
      = sources g.chunks ++ ' ' :: (g.kind.endMark env.delimiters ++ rest) := by
    simp
  have htokens : g.tokensAfter env.delimiters line read
      = [⟨line, .data, keptText read (signOf g.trim)⟩, ⟨line + lineFeeds read, g.kind.startToken,
          g.kind.startMark env.delimiters ++ signText g.trim⟩] ++
        (g.chunks.flatMap (Chunk.tokens (line + lineFeeds read)) ++
          [⟨line + lineFeeds read, .blank, [' ']⟩,
            ⟨line + lineFeeds read, g.kind.endToken, g.kind.endMark env.delimiters⟩]) :=
    rfl
  rw [Tag.source, htokens]
  refine Passes.trans (by rw [hcut]; exact passes_start henv hg) ?_
  refine Passes.trans (passes_chunks henv hg.marked (hg.together _) fun d ds hchunks => ?_)
    (passes_stop henv hg.marked)
  rw [hfirst] at hchunks
  rw [← (List.cons.inj hchunks).1, hspaced]
  exact nofun

end tags

end ViewContract.Template
