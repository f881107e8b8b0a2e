/-
ViewContract.Proofs.Guard.Tags — guards as tags.

The text of a guard is the text of three tags: the condition, what is done, and the end. Here
the tags are built chunk by chunk, and two things are shown of them: written out they are the
guard (`statement_eq`), and each is read as it is written (`fits_of_mem_tags`).

  §1 the chunks that occur, and when each fits in front of a text.
  §2 rows of words, and calls with their arguments.
  §3 literals. A sign is a chunk of its own.
  §4 guards.

A guard is `Writable` if its name is an identifier and a number in it can be written. That the
name is no word of the language is asked for here as well, since whoever reads the tags needs
it.
-/
import ViewContract.Proofs.Template.Chunk
import ViewContract.Proofs.Template.Quoted

namespace ViewContract.Template

open ViewContract.Text
open ViewContract.Number (Spelling)

/-! ## 1. Chunks -/

/-- A name with a blank before it. -/
def Chunk.word (w : Text) : Chunk :=
  ⟨true, .name, w⟩

/-- An operator of one character. -/
def Chunk.mark (spaced : Bool) (c : Char) : Chunk :=
  ⟨spaced, .operator, [c]⟩

theorem beginsLexeme_of_isIdentifierPart {c : Char} (h : isIdentifierPart c = true) :
    beginsLexeme c = true := by
  simp [beginsLexeme, h]

section fits

variable {t : Text} {spaced : Bool}

/-- What a text of letters, digits and underscores needs besides its lexeme. -/
theorem fits_of_parts {kind : TokenKind} {w : Text} (hne : w ≠ [])
    (hw : ∀ c ∈ w, isIdentifierPart c = true) (hkind : kind.IsWritten)
    (hlexeme : ∀ before, before ≠ some '.' → lexeme? before (w ++ t) = some (kind, w.length)) :
    Chunk.Fits ⟨spaced, kind, w⟩ t := by
  obtain ⟨c, rest, rfl⟩ := List.exists_cons_of_ne_nil hne
  have hc := hw c List.mem_cons_self
  refine ⟨hkind, ⟨c, rest, rfl, beginsLexeme_of_isIdentifierPart hc, ?_⟩, ?_, ?_, hlexeme⟩
  · intro hminus
    exact absurd hminus (ne_of_isIdentifierPart hc (by decide))
  · intro d hd
    exact ⟨ne_of_isIdentifierPart (hw d hd) (by decide),
      ne_of_isIdentifierPart (hw d hd) (by decide)⟩
  · intro hlast
    exact ne_of_isIdentifierPart (hw _ (List.mem_of_getLast? hlast)) (by decide) rfl

theorem fits_word {w : Text} (hw : isIdentifier w = true) (ht : Separates t) :
    Chunk.Fits ⟨spaced, .name, w⟩ t := by
  obtain ⟨c, rest, rfl, _, hparts⟩ := exists_of_isIdentifier hw
  exact fits_of_parts (by simp) hparts (.inl rfl) fun _ _ => lexeme?_name hw ht

theorem fits_integer (n : Nat) (ht : Separates t) :
    Chunk.Fits ⟨spaced, .integer, Nat.toDigits 10 n⟩ t :=
  fits_of_parts Nat.toDigits_ne_nil
    (fun _ hc => isIdentifierPart_of_isDigit (isDigit_of_mem_toDigits hc))
    (.inr (.inr (.inl rfl))) fun _ _ => lexeme?_integer n ht

theorem getLast?_text_spelling (s : Spelling) : s.text.getLast? ≠ some '.' := by
  have hdigits : ∀ {ds : Text}, (∀ c ∈ ds, c.isDigit = true) → ds.getLast? ≠ some '.' := by
    intro ds hds hlast
    exact absurd (hds _ (List.mem_of_getLast? hlast)) (by decide)
  rw [Spelling.text, List.getLast?_append, List.getLast?_append, Number.exponentPart,
    Number.fractionText]
  intro hlast
  have hpoint : ∀ {ds : Text} {c d : Char}, ds ≠ [] → (∀ c ∈ ds, c.isDigit = true) →
      (c :: d :: ds).getLast? ≠ some '.' ∧ (c :: ds).getLast? ≠ some '.' := by
    intro ds c d hne hds
    obtain ⟨e, ds, rfl⟩ := List.exists_cons_of_ne_nil hne
    rw [List.getLast?_cons_cons, List.getLast?_cons_cons, List.getLast?_cons_cons]
    exact ⟨hdigits hds, hdigits hds⟩
  rcases Option.or_eq_some_iff.mp hlast with hlast | ⟨-, hlast⟩
  · split at hlast
    · cases hlast
    · rename_i hne
      exact (hpoint hne fun c => s.exponent_digits).1 hlast
  · rcases Option.or_eq_some_iff.mp hlast with hlast | ⟨-, hlast⟩
    · split at hlast
      · cases hlast
      · rename_i hne
        exact (hpoint (d := '.') hne fun c => s.fraction_digits).2 hlast
    · exact hdigits (fun c => s.whole_digits) hlast

theorem fits_float (s : Spelling) (ht : Separates t) : Chunk.Fits ⟨spaced, .float, s.text⟩ t := by
  obtain ⟨c, rest, htext, hc⟩ := s.exists_head
  have hpart := isIdentifierPart_of_isDigit hc
  refine ⟨.inr (.inr (.inr (.inl rfl))), ⟨c, rest, htext, beginsLexeme_of_isIdentifierPart hpart,
    ?_⟩, ?_, getLast?_text_spelling s, fun _ => lexeme?_float s ht⟩
  · intro hminus
    exact absurd hminus (ne_of_isIdentifierPart hpart (by decide))
  · intro d hd
    have hcases := s.mem_text hd
    constructor <;> rintro rfl <;> exact absurd hcases (by decide)

theorem fits_string (s : Text) : Chunk.Fits ⟨spaced, .string, quoted s⟩ t := by
  refine ⟨.inr (.inl rfl), ⟨'"', _, rfl, by decide, fun h => absurd h (by decide)⟩, ?_, ?_,
    fun _ _ => lexeme?_string (quotable_inner s)⟩
  · rintro d hd
    constructor <;> rintro rfl
    · exact not_mem_quoted (.inl rfl) s hd
    · exact not_mem_quoted (.inr rfl) s hd
  · rw [quoted, List.getLast?_concat]
    decide

/-- An operator of a guard, where a sign stands before a lexeme and an equals sign not before
another. -/
theorem fits_mark {c : Char}
    (hc : c = '(' ∨ c = ')' ∨ c = ',' ∨ c = '-' ∧ (∃ d u, t = d :: u ∧ beginsLexeme d = true) ∨
      c = '=' ∧ t.head? ≠ some '=') : (Chunk.mark spaced c).Fits t := by
  have hchar : c = '(' ∨ c = ')' ∨ c = ',' ∨ c = '-' ∨ c = '=' := by
    rcases hc with h | h | h | ⟨h, -⟩ | ⟨h, -⟩ <;> simp [h]
  have hplain : beginsLexeme c = true ∧ (c ≠ '\n' ∧ c ≠ '\r') ∧ [c].getLast? ≠ some '.' := by
    rcases hchar with rfl | rfl | rfl | rfl | rfl <;> decide
  refine ⟨.inr (.inr (.inr (.inr rfl))), ⟨c, [], rfl, hplain.1, ?_⟩, ?_, hplain.2.2, fun _ _ => ?_⟩
  · rintro rfl
    rcases hc with h | h | h | ⟨-, h⟩ | ⟨h, -⟩
    · exact absurd h (by decide)
    · exact absurd h (by decide)
    · exact absurd h (by decide)
    · exact h
    · exact absurd h (by decide)
  · intro d hd
    rw [List.mem_singleton.mp hd]
    exact hplain.2.1
  · refine lexeme?_operator ?_
    rcases hc with h | h | h | ⟨h, -⟩ | h
    · exact .inl h
    · exact .inr (.inl h)
    · exact .inr (.inr (.inl h))
    · exact .inr (.inr (.inr (.inl h)))
    · exact .inr (.inr (.inr (.inr h)))

end fits

/-! ## 2. Words and calls -/

theorem separates_blank (t : Text) : Separates (' ' :: t) :=
  ⟨' ', t, rfl, .inl rfl⟩

/-- Words one after another. -/
def words (ws : List Text) : List Chunk :=
  ws.map Chunk.word

theorem fitTogether_word {w : Text} {cs : List Chunk} {t : Text} {due : List Char}
    (hw : isIdentifier w = true) (hnext : Separates (sources cs ++ t))
    (hcs : FitTogether t due cs) : FitTogether t due (.word w :: cs) :=
  ⟨fits_word hw hnext, due, rfl, hcs⟩

theorem fitTogether_words {ws : List Text} {cs : List Chunk} {t : Text} {due : List Char}
    (hws : ∀ w ∈ ws, isIdentifier w = true) (hnext : Separates (sources cs ++ t))
    (hcs : FitTogether t due cs) : FitTogether t due (words ws ++ cs) := by
  induction ws with
  | nil => exact hcs
  | cons w ws ih =>
    refine fitTogether_word (hws w List.mem_cons_self) ?_
      (ih fun v hv => hws v (List.mem_cons_of_mem w hv))
    cases ws with
    | nil => exact hnext
    | cons v ws => exact separates_blank _

/-- An argument of a call: a text, or a variable. -/
inductive Argument where
  | text (t : Text)
  | name (w : Text)

/-- An argument as template text. -/
def Argument.source : Argument → Text
  | .text t => quoted t
  | .name w => w

/-- An argument as a chunk. -/
def Argument.chunk (spaced : Bool) : Argument → Chunk
  | .text t => ⟨spaced, .string, quoted t⟩
  | .name w => ⟨spaced, .name, w⟩

/-- An argument that can be written: a variable is an identifier. -/
def Argument.Writable : Argument → Prop
  | .text _ => True
  | .name w => isIdentifier w = true

/-- The arguments after the first, each with the comma before it. -/
def laterChunks (args : List Argument) : List Chunk :=
  args.flatMap fun a => [.mark false ',', a.chunk true]

theorem laterChunks_cons (a : Argument) (args : List Argument) :
    laterChunks (a :: args) = .mark false ',' :: a.chunk true :: laterChunks args :=
  rfl

/-- The chunks of a call of a function, at the end of a tag. -/
def callChunks (function : Text) (first : Argument) (later : List Argument) : List Chunk :=
  .word function :: .mark false '(' :: first.chunk false :: (laterChunks later ++
    [.mark false ')'])

theorem Argument.source_chunk (a : Argument) (spaced : Bool) :
    (a.chunk spaced).source = (if spaced then [' '] else []) ++ a.source := by
  cases a <;> cases spaced <;> rfl

theorem sources_later (args : List Argument) (a : Argument) :
    a.source ++ sources (laterChunks args)
      = ", ".toList.intercalate ((a :: args).map Argument.source) := by
  induction args generalizing a with
  | nil => simp [laterChunks]
  | cons b args ih =>
    rw [laterChunks_cons, sources_cons, sources_cons, Argument.source_chunk, List.map_cons,
      List.map_cons, List.intercalate_cons_cons, ← List.map_cons, ← ih]
    simp [Chunk.source, Chunk.mark]

theorem sources_call (function : Text) (first : Argument) (later : List Argument) :
    sources (callChunks function first later)
      = ' ' :: callText function ((first :: later).map Argument.source) := by
  have hfirst : (first.chunk false).source = first.source := first.source_chunk false
  rw [callText, ← sources_later, callChunks, sources_cons, sources_cons, sources_cons, hfirst,
    sources_append]
  simp [Chunk.source, Chunk.word, Chunk.mark]

theorem fits_argument {a : Argument} (ha : a.Writable) {t : Text} (ht : Separates t)
    (spaced : Bool) : (a.chunk spaced).Fits t := by
  cases a with
  | text s => exact fits_string s
  | name w => exact fits_word ha ht

theorem argument_due (a : Argument) (spaced : Bool) (due : List Char) :
    (a.chunk spaced).dueAfter due = .ok due := by
  cases a <;> rfl

theorem fitTogether_later {args : List Argument} (hargs : ∀ a ∈ args, a.Writable) (t : Text) :
    Separates (sources (laterChunks args ++ [.mark false ')']) ++ t) ∧
      FitTogether t [')'] (laterChunks args ++ [.mark false ')']) := by
  induction args with
  | nil =>
    exact ⟨⟨')', t, rfl, .inr (.inr (.inl rfl))⟩, fits_mark (.inr (.inl rfl)), [], rfl, rfl⟩
  | cons a args ih =>
    obtain ⟨hnext, htail⟩ := ih fun b hb => hargs b (List.mem_cons_of_mem a hb)
    rw [laterChunks_cons, List.cons_append, List.cons_append]
    refine ⟨⟨',', _, rfl, .inr (.inr (.inr rfl))⟩, fits_mark (.inr (.inr (.inl rfl))), [')'], rfl,
      fits_argument (hargs a List.mem_cons_self) hnext true, [')'], argument_due a true _, htail⟩

theorem fitTogether_call {function : Text} {first : Argument} {later : List Argument}
    (hf : isIdentifier function = true) (hargs : ∀ a ∈ first :: later, a.Writable) (t : Text) :
    FitTogether t [] (callChunks function first later) := by
  obtain ⟨hnext, hlater⟩ := fitTogether_later (fun a ha => hargs a (List.mem_cons_of_mem _ ha)) t
  exact fitTogether_word hf ⟨'(', _, rfl, .inr (.inl rfl)⟩
    ⟨fits_mark (.inl rfl), [')'], rfl, fits_argument (hargs first List.mem_cons_self) hnext false,
      [')'], argument_due first false _, hlater⟩

/-! ## 3. Literals -/

/-- A number with its sign, after a blank. -/
def signedChunks (negative : Bool) (kind : TokenKind) (t : Text) : List Chunk :=
  if negative then [.mark true '-', ⟨false, kind, t⟩] else [⟨true, kind, t⟩]

theorem sources_signed (negative : Bool) (kind : TokenKind) (t : Text) :
    sources (signedChunks negative kind t) = ' ' :: if negative then '-' :: t else t := by
  cases negative <;> simp [signedChunks, Chunk.source, Chunk.mark]

theorem fitTogether_signed {negative : Bool} {kind : TokenKind} {w t : Text}
    (hkind : kind ≠ .operator) (hfits : ∀ spaced, Chunk.Fits ⟨spaced, kind, w⟩ t) :
    FitTogether t [] (signedChunks negative kind w) := by
  have hdue : ∀ spaced, (⟨spaced, kind, w⟩ : Chunk).dueAfter [] = .ok [] := fun _ => if_neg hkind
  cases negative with
  | false => exact ⟨hfits true, [], hdue true, rfl⟩
  | true =>
    obtain ⟨d, u, htext, hd, _⟩ := (hfits false).begins
    have hw : w = d :: u := htext
    refine ⟨fits_mark (.inr (.inr (.inr (.inl ⟨rfl, d, u ++ t, ?_, hd⟩)))), [], rfl, hfits false,
      [], hdue false, rfl⟩
    simp [Chunk.source, hw]

end ViewContract.Template

namespace ViewContract

open Template Text

/-- The chunks of a literal. -/
def Literal.chunks : Literal → List Chunk
  | .null => [.word "none".toList]
  | .int n => signedChunks (n < 0) .integer (Nat.toDigits 10 n.natAbs)
  | .float (.finite negative m e) =>
    signedChunks negative .float (Number.Binary64.finite false m e).text
  | .float x => [.word x.text]
  | .string t => [⟨true, .string, quoted t⟩]

/-- A literal that can be written: an integer is within the limit of digits, and a double is
finite and in normal form. -/
def Literal.Writable : Literal → Prop
  | .int n => Number.decimalLength n.natAbs ≤ Number.digitLimit
  | .float (.finite _ m e) => Number.Normal m e
  | .float _ => False
  | _ => True

theorem Literal.sources_chunks {l : Literal} (hl : l.Writable) {t : Text}
    (h : l.source = .ok t) : sources l.chunks = ' ' :: t := by
  match l with
  | .null => exact Except.ok.inj h ▸ rfl
  | .int n =>
    rw [source, Number.decimalText?] at h
    split at h
    · exact nomatch h
    · rw [← Except.ok.inj h, chunks, sources_signed, Number.decimalText]
      simp
  | .float (.finite negative m e) =>
    obtain ⟨s, htext, -⟩ := Number.exists_spelling_of_normal hl
    have hfalse : (Number.Binary64.finite false m e).text = s.text := htext false
    rw [← Except.ok.inj h, chunks, sources_signed, hfalse, htext negative]
  | .string s =>
    rw [← Except.ok.inj h]
    simp [chunks, Chunk.source]

theorem Literal.exists_sources (l : Literal) : ∃ t, sources l.chunks = ' ' :: t := by
  match l with
  | .null => exact ⟨_, rfl⟩
  | .int n => exact ⟨_, sources_signed _ _ _⟩
  | .float (.finite negative m e) => exact ⟨_, sources_signed _ _ _⟩
  | .float (.infinite negative) => exact ⟨_, rfl⟩
  | .float .nan => exact ⟨_, rfl⟩
  | .string t => exact ⟨_, rfl⟩

theorem Literal.Writable.fitTogether {l : Literal} (hl : l.Writable) (t : Text) :
    FitTogether (' ' :: t) [] l.chunks := by
  match l with
  | .null => exact fitTogether_word (by decide) (separates_blank t) rfl
  | .int n => exact fitTogether_signed (by decide) fun _ => fits_integer _ (separates_blank t)
  | .float (.finite negative m e) =>
    obtain ⟨s, htext, -⟩ := Number.exists_spelling_of_normal hl
    have hfalse : (Number.Binary64.finite false m e).text = s.text := htext false
    rw [chunks, hfalse]
    exact fitTogether_signed (by decide) fun _ => fits_float s (separates_blank t)
  | .string s => exact ⟨fits_string s, [], rfl, rfl⟩

/-! ## 4. Guards -/

/-- The words that say that a variable is missing or null. -/
def absentWords (name : Text) : List Text :=
  [name, "is".toList, "not".toList, "defined".toList, "or".toList, name, "is".toList,
    "none".toList]

/-- The words before a test that a variable which is not null fails. -/
def failsWords (name : Text) : List Text :=
  [name, "is".toList, "not".toList, "none".toList, "and".toList, name, "is".toList, "not".toList]

/-- The chunks of the condition of a guard. -/
def Guard.conditionChunks : Guard → List Chunk
  | .present name | .fallback name _ => words (absentWords name)
  | .ofKind name kind =>
    words (failsWords name) ++ callChunks kindTest (.text kind.name.toList) []
  | .ofClass name path => words (failsWords name) ++ callChunks classTest (.text path) []

/-- The tag of what a guard does. -/
def Guard.actionTag : Guard → Tag
  | .present name => ⟨.output, false, callChunks raiseUndefined (.text name) []⟩
  | .fallback name default =>
    ⟨.block, false, words ["set".toList, name] ++ .mark true '=' :: default.chunks⟩
  | .ofKind name kind =>
    ⟨.output, false, callChunks raiseWrongType (.text name) [.text kind.name.toList, .name name]⟩
  | .ofClass name path => ⟨.output, false, callChunks raiseWrongClass (.text name) [.text path]⟩

/-- The tags of a guard. -/
def Guard.tags (trim : Bool) (g : Guard) : List Tag :=
  [⟨.block, trim, .word "if".toList :: g.conditionChunks⟩, g.actionTag,
    ⟨.block, false, [.word "endif".toList]⟩]

/-- The name that a guard is about. -/
def Guard.name : Guard → Text
  | .present name | .fallback name _ | .ofKind name _ | .ofClass name _ => name

/-- A guard that can be written and read: of an identifier that is no word of the language, and
with a default that can be written. -/
structure Guard.Writable (g : Guard) : Prop where
  name : isIdentifier g.name = true
  notReserved : isReserved g.name = false
  default : ∀ name default, g = .fallback name default → default.Writable

theorem sources_words (ws : List Text) : sources (words ws) = ws.flatMap (' ' :: ·) := by
  induction ws with
  | nil => rfl
  | cons w ws ih =>
    rw [words, List.map_cons, sources_cons, ← words, ih]
    rfl

theorem Guard.sources_condition (g : Guard) : sources g.conditionChunks = ' ' :: g.condition := by
  have habsent : ∀ name, sources (words (absentWords name)) = ' ' :: absentText name := by
    intro name
    have hcut : absentText name = name ++ ([' ', 'i', 's', ' ', 'n', 'o', 't', ' ', 'd', 'e', 'f',
        'i', 'n', 'e', 'd', ' ', 'o', 'r', ' '] ++ (name ++ [' ', 'i', 's', ' ', 'n', 'o', 'n',
        'e'])) := by
      simp [absentText]
    rw [hcut, sources_words]
    simp [absentWords]
  have hfails : ∀ name test argument, sources (words (failsWords name) ++
      callChunks test (.text argument) []) = ' ' :: failsText name test (quoted argument) := by
    intro name test argument
    have hcut : failsText name test (quoted argument) = name ++ ([' ', 'i', 's', ' ', 'n', 'o',
        't', ' ', 'n', 'o', 'n', 'e', ' ', 'a', 'n', 'd', ' '] ++ (name ++ [' ', 'i', 's', ' ',
        'n', 'o', 't', ' '] ++ callText test [quoted argument])) := by
      simp [failsText]
    rw [hcut, sources_append, sources_call, sources_words]
    simp [failsWords, Argument.source]
  cases g with
  | present name => exact habsent name
  | fallback name default => exact habsent name
  | ofKind name kind => exact hfails name kindTest kind.name.toList
  | ofClass name path => exact hfails name classTest path

theorem source_block {cs : List Chunk} {content : Text} (δ : Delimiters) (trim : Bool)
    (h : sources cs = ' ' :: content) : Tag.source δ ⟨.block, trim, cs⟩ = δ.tag trim content := by
  simp [Tag.source, Delimiters.tag, TagKind.startMark, TagKind.endMark, signText, h]

theorem source_output {cs : List Chunk} {content : Text} (δ : Delimiters)
    (h : sources cs = ' ' :: content) : Tag.source δ ⟨.output, false, cs⟩ = δ.output content := by
  simp [Tag.source, Delimiters.output, TagKind.startMark, TagKind.endMark, signText, h]

theorem Guard.source_action {g : Guard} (hg : g.Writable) {δ : Delimiters} {t : Text}
    (h : g.action δ = .ok t) : g.actionTag.source δ = t := by
  cases g with
  | present name => exact (source_output δ (sources_call _ _ _)).trans (Except.ok.inj h)
  | ofKind name kind => exact (source_output δ (sources_call _ _ _)).trans (Except.ok.inj h)
  | ofClass name path => exact (source_output δ (sources_call _ _ _)).trans (Except.ok.inj h)
  | fallback name default =>
    cases hvalue : default.source with
    | error fault => simp [action, hvalue, bind, Except.bind] at h
    | ok value =>
      simp only [action, hvalue, bind, Except.bind, pure, Except.pure, Except.ok.injEq] at h
      rw [← h, actionTag]
      refine source_block δ false ?_
      rw [sources_append, sources_words, sources_cons,
        Literal.sources_chunks (hg.default name default rfl) hvalue]
      simp [Chunk.source, Chunk.mark]

/-- The statement of a guard is its tags, written out. -/
theorem Guard.statement_eq {g : Guard} (hg : g.Writable) {δ : Delimiters} {trim : Bool} {t : Text}
    (h : g.statement δ trim = .ok t) : t = (g.tags trim).flatMap (Tag.source δ) := by
  cases haction : g.action δ with
  | error fault => simp [statement, haction, bind, Except.bind] at h
  | ok action =>
    simp only [statement, haction, bind, Except.bind, pure, Except.pure, Except.ok.injEq] at h
    have hif : sources (.word "if".toList :: g.conditionChunks)
        = ' ' :: ("if ".toList ++ g.condition) := by
      rw [sources_cons, g.sources_condition]
      simp [Chunk.source, Chunk.word]
    have hendif : sources [.word "endif".toList] = ' ' :: "endif".toList := rfl
    rw [← h, tags, List.flatMap_cons, List.flatMap_cons, List.flatMap_cons, List.flatMap_nil,
      source_block δ trim hif, g.source_action hg haction, source_block δ false hendif]
    simp

theorem fits_of_word {kind : TagKind} (hkind : kind ≠ .line) {trim : Bool} {w : Text}
    {cs : List Chunk} (hw : isIdentifier w = true) (hr : w.head? ≠ some 'r')
    (h : ∀ t, FitTogether (' ' :: t) [] (.word w :: cs)) :
    Tag.Fits ⟨kind, trim, .word w :: cs⟩ := by
  obtain ⟨d, u, htext, hstart, _⟩ := exists_of_isIdentifier hw
  refine ⟨hkind, ⟨.word w, cs, d, u, rfl, rfl, htext,
    beginsLexeme_of_isIdentifierPart (isIdentifierPart_of_start hstart), ?_⟩, h⟩
  rintro rfl
  exact hr (by rw [htext]; rfl)

theorem Guard.fits_condition {g : Guard} (hg : g.Writable) (t : Text) :
    FitTogether (' ' :: t) [] (.word "if".toList :: g.conditionChunks) := by
  have habsent : ∀ name, isIdentifier name = true →
      FitTogether (' ' :: t) [] (.word "if".toList :: words (absentWords name)) := by
    intro name hname
    have hall : ∀ w ∈ "if".toList :: absentWords name, isIdentifier w = true := by
      simp only [absentWords, List.mem_cons, List.not_mem_nil, or_false]
      rintro w (rfl | rfl | rfl | rfl | rfl | rfl | rfl | rfl | rfl)
      all_goals first | exact hname | decide
    have hwords : FitTogether (' ' :: t) [] (words ("if".toList :: absentWords name) ++ []) :=
      fitTogether_words hall (separates_blank t) rfl
    rwa [List.append_nil] at hwords
  have hfails : ∀ name test argument, isIdentifier name = true → isIdentifier test = true →
      FitTogether (' ' :: t) [] (.word "if".toList :: (words (failsWords name) ++
        callChunks test (.text argument) [])) := by
    intro name test argument hname htest
    have hall : ∀ w ∈ "if".toList :: failsWords name, isIdentifier w = true := by
      simp only [failsWords, List.mem_cons, List.not_mem_nil, or_false]
      rintro w (rfl | rfl | rfl | rfl | rfl | rfl | rfl | rfl | rfl)
      all_goals first | exact hname | decide
    refine fitTogether_words hall (separates_blank _) (fitTogether_call htest ?_ _)
    simp [Argument.Writable]
  cases g with
  | present name => exact habsent name hg.name
  | fallback name default => exact habsent name hg.name
  | ofKind name kind => exact hfails name kindTest _ hg.name (by decide)
  | ofClass name path => exact hfails name classTest path hg.name (by decide)

theorem Guard.fits_action {g : Guard} (hg : g.Writable) : g.actionTag.Fits := by
  cases g with
  | present name =>
    refine fits_of_word (by decide) (by decide) (by decide) fun t =>
      fitTogether_call (by decide) ?_ _
    simp [Argument.Writable]
  | ofKind name kind =>
    refine fits_of_word (by decide) (by decide) (by decide) fun t =>
      fitTogether_call (by decide) ?_ _
    have hname : isIdentifier name = true := hg.name
    simp [Argument.Writable, hname]
  | ofClass name path =>
    refine fits_of_word (by decide) (by decide) (by decide) fun t =>
      fitTogether_call (by decide) ?_ _
    simp [Argument.Writable]
  | fallback name default =>
    refine fits_of_word (by decide) (by decide) (by decide) fun t => ?_
    have hall : ∀ w ∈ ["set".toList, name], isIdentifier w = true := by
      simp only [List.mem_cons, List.not_mem_nil, or_false]
      rintro w (rfl | rfl)
      · decide
      · exact hg.name
    have hdefault : default.Writable := hg.default name default rfl
    have hequals : FitTogether (' ' :: t) [] (.mark true '=' :: default.chunks) := by
      refine ⟨fits_mark (.inr (.inr (.inr (.inr ⟨rfl, ?_⟩)))), [], rfl, hdefault.fitTogether t⟩
      obtain ⟨u, hu⟩ := default.exists_sources
      rw [hu]
      simp
    exact fitTogether_words hall (separates_blank _) hequals

/-- The tags of a guard are read as they are written. -/
theorem Guard.fits_of_mem_tags {g : Guard} (hg : g.Writable) {trim : Bool} {tag : Tag}
    (h : tag ∈ g.tags trim) : tag.Fits := by
  rw [tags] at h
  simp only [List.mem_cons, List.not_mem_nil, or_false] at h
  rcases h with rfl | rfl | rfl
  · exact fits_of_word (by decide) (by decide) (by decide) (Guard.fits_condition hg)
  · exact Guard.fits_action hg
  · exact fits_of_word (by decide) (by decide) (by decide) fun t =>
      fitTogether_word (by decide) (separates_blank t) rfl

end ViewContract
