/-
ViewContract.Proofs.Signature.Lexeme — lexemes of a parameter list in front of other text.

At each place the kinds of token are tried one after the other, and each takes as much as it
can. So a lexeme is read as written if no kind before its own matches, and if it does not go on
with what follows it:

  §1 the kinds tried before, which are ruled out by the first character.
  §2 one lexeme of each kind that parameters are written with, and the condition on what
     follows: `Ends` for names, variables and numbers, none for strings and most marks.
  §3 a row of lexemes. It is read lexeme by lexeme if each is read in front of what follows it
     (`tokenize_of_lexed`), and blanks can be put into a row at will (`Row.lexed`).
-/
import ViewContract.Proofs.Number.Grouped
import ViewContract.Proofs.Signature.Quoted
import ViewContract.Proofs.Text.Blank
import ViewContract.Proofs.Text.ClassName
import ViewContract.Signature.Written

namespace ViewContract.Signature

open ViewContract.Text
open ViewContract.Number (Grouped)

/-! ## 1. Kinds that are ruled out -/

section head

variable {c : Char} {t : Text}

theorem variableLength?_of_ne (hc : c ≠ '$') : variableLength? (c :: t) = none := by
  simp [variableLength?, hc]

theorem dollarLength?_of_ne (hc : c ≠ '$') : dollarLength? (c :: t) = none := by
  simp [dollarLength?, hc]

/-- A number begins with a digit or a point. -/
theorem numberLength?_of_not_digit (hc : isDecimalDigit c = false) (hpoint : c ≠ '.') :
    numberLength? (c :: t) = none := by
  have hzero : c ≠ '0' := fun h => absurd (h ▸ hc) (by decide)
  have hprefixed : ∀ letter isDigit, prefixedLength? letter isDigit (c :: t) = none := by
    intro letter isDigit
    simp [prefixedLength?, hzero]
  have hrun : digitRun (c :: t) = 0 := by simp [digitRun, hc]
  simp [numberLength?, hprefixed, pointedLength?, wholeLength?, hrun, hpoint]

theorem stringLength?_of_ne (hsingle : c ≠ '\'') (hdouble : c ≠ '"') :
    stringLength? (c :: t) = none := by
  simp [stringLength?, hsingle, hdouble]

theorem classNameLength?_of_not_start (hc : isIdentifierStart c = false) (hslash : c ≠ '\\') :
    classNameLength? (c :: t) = none := by
  rw [classNameLength?_of_head_ne (by simpa using hslash), leadingIdentifier?,
    if_neg (by simp [hc])]
  rfl

end head

/-! ## 2. One lexeme -/

/-- What ends a name or a number: the end, a blank, or one of the marks that stand behind them. -/
def Ends (t : Text) : Prop :=
  ∀ c, t.head? = some c → isBlank c = true ∨ c = '$' ∨ c = '=' ∨ c = ','

section ends

variable {t : Text}

theorem ends_blank {c : Char} (hc : isBlank c = true) : Ends (c :: t) := by
  intro d hd
  obtain rfl := Option.some.inj hd
  exact .inl hc

theorem Ends.head_any {p : Char → Bool} (h : Ends t) (hblank : ∀ c, isBlank c = true → p c = false)
    (hmark : p '$' = false ∧ p '=' = false ∧ p ',' = false) : t.head?.any p = false := by
  cases t with
  | nil => rfl
  | cons c t =>
    rw [List.head?_cons, Option.any_some]
    rcases h c rfl with hc | rfl | rfl | rfl
    · exact hblank c hc
    · exact hmark.1
    · exact hmark.2.1
    · exact hmark.2.2

theorem Ends.endsPath (h : Ends t) : EndsPath t := by
  intro c hc
  rcases h c hc with hblank | rfl | rfl | rfl
  · exact ⟨isIdentifierPart_of_isBlank hblank, ne_of_isBlank hblank (by decide),
      ne_of_isBlank hblank (by decide)⟩
  · decide
  · decide
  · decide

/-- A variable in front of what ends a name. -/
theorem tokenLength?_variable {name : Text} (hname : isIdentifier name = true) (ht : Ends t) :
    tokenLength? ('$' :: name ++ t) = some (.variableName, ('$' :: name).length) := by
  have hread : leadingIdentifier? (name ++ t) = some name :=
    leadingIdentifier?_append hname (ht.head_any (fun c => isIdentifierPart_of_isBlank) (by decide))
  simp [tokenLength?, matchers, variableLength?, hread]

/-- A class name in front of what ends a name. -/
theorem tokenLength?_name {name : Text} (hname : ClassName name) (ht : Ends t) :
    tokenLength? (name ++ t) = some (.name, name.length) := by
  have hlength := classNameLength?_append hname ht.endsPath
  obtain ⟨c, rest, rfl, hc⟩ := hname.exists_head
  have hfirst : c ≠ '$' ∧ c ≠ '.' ∧ c ≠ '\'' ∧ c ≠ '"' ∧ isDecimalDigit c = false := by
    rcases hc with rfl | hc
    · decide
    · have hpart := isIdentifierPart_of_start hc
      have hne : ∀ {d}, isIdentifierPart d = false → c ≠ d := ne_of_isIdentifierPart hpart
      refine ⟨hne (by decide), hne (by decide), hne (by decide), hne (by decide), ?_⟩
      rw [isDecimalDigit_of_lt (by have := isIdentifierPart_iff.mp hpart; omega),
        isDigit_of_isIdentifierStart hc]
  obtain ⟨hdollar, hpoint, hsingle, hdouble, hdigit⟩ := hfirst
  rw [List.cons_append] at hlength ⊢
  simp [tokenLength?, matchers, variableLength?_of_ne hdollar, dollarLength?_of_ne hdollar,
    numberLength?_of_not_digit hdigit hpoint, stringLength?_of_ne hsingle hdouble, hlength]

end ends

/-- A string between its quotes in front of anything. -/
theorem tokenLength?_string {quote : Char} (hquote : IsQuote quote) {s : Text}
    (hs : StringInterior quote s) (t : Text) :
    tokenLength? (quote :: s ++ [quote] ++ t) = some (.string, (quote :: s ++ [quote]).length) := by
  have hcut : quote :: s ++ [quote] ++ t = quote :: (s ++ quote :: t) := by simp
  have hlength := stringLength?_interior hquote hs t
  have hfirst : quote ≠ '$' ∧ quote ≠ '.' ∧ isDecimalDigit quote = false := by
    rcases hquote with rfl | rfl <;> decide
  obtain ⟨hdollar, hpoint, hdigit⟩ := hfirst
  rw [hcut] at hlength ⊢
  simp [tokenLength?, matchers, variableLength?_of_ne hdollar, dollarLength?_of_ne hdollar,
    numberLength?_of_not_digit hdigit hpoint, hlength]

/-- A mark in front of anything; an equals sign not in front of the end of an arrow. -/
theorem tokenLength?_mark {c : Char} {t : Text}
    (hc : c = '?' ∨ c = ',' ∨ c = '+' ∨ c = '-' ∨ c = '=' ∧ t.head? ≠ some '>') :
    tokenLength? (c :: t) = some (.punctuation, 1) := by
  have harrow : arrowLength? (c :: t) = none := by
    rcases hc with rfl | rfl | rfl | rfl | ⟨rfl, hhead⟩
    · rfl
    · rfl
    · rfl
    · rfl
    · cases t with
      | nil => rfl
      | cons d t =>
        have hd : d ≠ '>' := fun h => hhead (by rw [h]; rfl)
        simp [arrowLength?, hd]
  have hfirst : c ≠ '$' ∧ c ≠ '.' ∧ c ≠ '\'' ∧ c ≠ '"' ∧ c ≠ '\\' ∧ c ≠ ':' ∧
      isDecimalDigit c = false ∧ isIdentifierStart c = false ∧ c ∈ punctuation := by
    rcases hc with rfl | rfl | rfl | rfl | ⟨rfl, _⟩ <;> decide
  obtain ⟨hdollar, hpoint, hsingle, hdouble, hslash, hcolon, hdigit, hstart, hmark⟩ := hfirst
  simp [tokenLength?, matchers, variableLength?_of_ne hdollar, dollarLength?_of_ne hdollar,
    numberLength?_of_not_digit hdigit hpoint, stringLength?_of_ne hsingle hdouble,
    classNameLength?_of_not_start hstart hslash, doubleColonLength?, hcolon, harrow,
    punctuationLength?, hmark]

/-! ### Numbers -/

theorem toLower_eq_self {c : Char} (hc : c.isAlpha = false) : c.toLower = c := by
  have hupper : c.isUpper = false := (Bool.or_eq_false_iff.mp hc).1
  exact dif_neg (of_decide_eq_false hupper)

/-- A number without a prefix has no letter behind its first digit. -/
theorem prefixedLength?_eq_none {letter : Char} {isDigit : Char → Bool} {t : Text}
    (hletter : letter.isAlpha = true) (ht : (t.drop 1).head?.any Char.isAlpha = false) :
    prefixedLength? letter isDigit t = none := by
  rw [prefixedLength?.eq_def]
  split
  · rename_i c rest
    have hc : c.isAlpha = false := by simpa using ht
    have hne : c.toLower ≠ letter := by
      rw [toLower_eq_self hc]
      rintro rfl
      rw [hc] at hletter
      exact nomatch hletter
    simp [hne]
  · rfl

/-- Digits and underscores in front of what ends a number. -/
theorem digitRun_grouped {ds t : Text} (hds : Grouped ds) (ht : Ends t) :
    digitRun (ds ++ t) = ds.length := by
  obtain ⟨c, rest, rfl, hc⟩ := hds.exists_head
  have hrest : ∀ d ∈ rest, (isDecimalDigit d || d = '_') = true := by
    intro d hd
    rcases hds.mem (List.mem_cons_of_mem c hd) with hdigit | rfl
    · simp [isDecimalDigit_of_isDigit hdigit]
    · simp
  have hhead : t.head?.any (fun d => isDecimalDigit d || d = '_') = false :=
    ht.head_any (fun c hc => by
      simpa using ⟨isDecimalDigit_of_isBlank hc, ne_of_isBlank hc (by decide)⟩) (by decide)
  rw [List.cons_append, digitRun, if_pos (isDecimalDigit_of_isDigit hc),
    takeWhile_append_of_head hrest hhead, List.length_cons, Nat.add_comm]

/-- No letter stands behind the first digit, which a prefix would need. -/
theorem not_isAlpha_second {ds t : Text} (hds : Grouped ds) (ht : Ends t) :
    ((ds ++ t).drop 1).head?.any Char.isAlpha = false := by
  obtain ⟨c, rest, rfl, -⟩ := hds.exists_head
  cases rest with
  | nil =>
    refine ht.head_any (fun d hd => Bool.eq_false_iff.mpr fun halpha => ?_) (by decide)
    have hpart : isIdentifierPart d = true :=
      isIdentifierPart_iff.mpr (.inl (.inl (isAlpha_iff.mp halpha)))
    exact ne_of_isBlank hd (not_blank_of_isIdentifierPart hpart) rfl
  | cons d rest =>
    have halpha : d.isAlpha = false := by
      rcases hds.mem (List.mem_cons_of_mem c List.mem_cons_self) with hdigit | rfl
      · refine Bool.eq_false_iff.mpr fun h => ?_
        have hrange := isDigit_iff.mp hdigit
        have := isAlpha_iff.mp h
        omega
      · decide
    simpa using halpha

/-- Grouped digits in front of what ends a number. -/
theorem tokenLength?_grouped {ds t : Text} (hds : Grouped ds) (ht : Ends t) :
    tokenLength? (ds ++ t) = some (.number, ds.length) := by
  have hrun := digitRun_grouped hds ht
  have hlength : ds.length ≠ 0 := by
    obtain ⟨c, rest, rfl, -⟩ := hds.exists_head
    exact Nat.succ_ne_zero rest.length
  obtain ⟨hpointed, hwhole⟩ :
      pointedLength? (ds ++ t) = none ∧ wholeLength? (ds ++ t) = some ds.length := by
    cases t with
    | nil =>
      rw [List.append_nil] at hrun ⊢
      simp [pointedLength?, wholeLength?, hrun, hlength, exponentLength]
    | cons c t =>
      obtain ⟨hpoint, he, hE⟩ : c ≠ '.' ∧ c ≠ 'e' ∧ c ≠ 'E' := by
        rcases ht c rfl with hblank | rfl | rfl | rfl
        · exact ⟨ne_of_isBlank hblank (by decide), ne_of_isBlank hblank (by decide),
            ne_of_isBlank hblank (by decide)⟩
        all_goals decide
      simp [pointedLength?, wholeLength?, hrun, hlength, exponentLength, hpoint, he, hE]
  have hprefixed : ∀ letter isDigit, letter.isAlpha = true →
      prefixedLength? letter isDigit (ds ++ t) = none :=
    fun letter isDigit hletter => prefixedLength?_eq_none hletter (not_isAlpha_second hds ht)
  have hnumber : numberLength? (ds ++ t) = some ds.length := by
    rw [numberLength?, hprefixed 'x' _ rfl, hprefixed 'b' _ rfl, hprefixed 'o' _ rfl, hpointed,
      hwhole]
    rfl
  obtain ⟨c, rest, rfl, hc⟩ := hds.exists_head
  have hdollar : c ≠ '$' := by
    rintro rfl
    exact absurd hc (by decide)
  rw [List.cons_append] at hnumber ⊢
  simp [tokenLength?, matchers, variableLength?_of_ne hdollar, dollarLength?_of_ne hdollar, hnumber]

/-! ### Lexemes -/

/-- A lexeme is read as it is in front of a text. -/
structure Lexeme.Reads (l : Lexeme) (t : Text) : Prop where
  notBlank : ∃ c rest, l.text = c :: rest ∧ isBlank c = false
  token : tokenLength? (l.text ++ t) = some (l.kind, l.text.length)

section lexeme

variable {t : Text}

theorem reads_name {name : Text} (hname : ClassName name) (ht : Ends t) :
    Lexeme.Reads ⟨.name, name⟩ t := by
  refine ⟨?_, tokenLength?_name hname ht⟩
  obtain ⟨c, rest, rfl, hc⟩ := hname.exists_head
  refine ⟨c, rest, rfl, ?_⟩
  rcases hc with rfl | hstart
  · decide
  · exact not_blank_of_isIdentifierPart (isIdentifierPart_of_start hstart)

theorem reads_variable {name : Text} (hname : isIdentifier name = true) (ht : Ends t) :
    (Lexeme.ofName name).Reads t :=
  ⟨⟨'$', name, rfl, by decide⟩, tokenLength?_variable hname ht⟩

theorem reads_grouped {ds : Text} (hds : Grouped ds) (ht : Ends t) :
    Lexeme.Reads ⟨.number, ds⟩ t := by
  refine ⟨?_, tokenLength?_grouped hds ht⟩
  obtain ⟨c, rest, rfl, -⟩ := hds.exists_head
  exact ⟨c, rest, rfl, hds.not_blank List.mem_cons_self⟩

theorem reads_string {quote : Char} (hquote : IsQuote quote) {s : Text}
    (hs : StringInterior quote s) : Lexeme.Reads ⟨.string, quote :: s ++ [quote]⟩ t := by
  refine ⟨⟨quote, _, rfl, ?_⟩, tokenLength?_string hquote hs t⟩
  rcases hquote with rfl | rfl <;> decide

theorem reads_quoted (s : Text) : Lexeme.Reads ⟨.string, quoted s⟩ t :=
  reads_string (.inr rfl) (stringInterior_quoted s)

theorem reads_mark {c : Char}
    (hc : c = '?' ∨ c = ',' ∨ c = '+' ∨ c = '-' ∨ c = '=' ∧ t.head? ≠ some '>') :
    (Lexeme.mark c).Reads t := by
  refine ⟨⟨c, [], rfl, ?_⟩, tokenLength?_mark hc⟩
  rcases hc with rfl | rfl | rfl | rfl | ⟨rfl, _⟩ <;> decide

end lexeme

/-! ## 3. Rows of lexemes -/

/-- Lexemes in a text with blanks at will, each read as it is in front of what follows it. -/
inductive Lexed : List Lexeme → Text → Prop where
  | nil {blanks : Text} (hblank : ∀ c ∈ blanks, isBlank c = true) : Lexed [] blanks
  | cons {blanks text : Text} {l : Lexeme} {ls : List Lexeme}
      (hblank : ∀ c ∈ blanks, isBlank c = true) (hl : l.Reads text) (hrest : Lexed ls text) :
      Lexed (l :: ls) (blanks ++ l.text ++ text)

theorem Lexed.next {l : Lexeme} {ls : List Lexeme} {t : Text} (hl : l.Reads t) (h : Lexed ls t) :
    Lexed (l :: ls) (l.text ++ t) :=
  .cons (fun _ hc => absurd hc List.not_mem_nil) hl h

theorem Lexed.blank {c : Char} (hc : isBlank c = true) {ls : List Lexeme} {t : Text}
    (h : Lexed ls t) : Lexed ls (c :: t) := by
  cases h with
  | nil hblank => exact .nil (List.forall_mem_cons.mpr ⟨hc, hblank⟩)
  | cons hblank hl hrest => exact .cons (List.forall_mem_cons.mpr ⟨hc, hblank⟩) hl hrest

theorem tokensFrom_covered (t rest : Text) (position : Nat) :
    tokensFrom t.length position (t ++ rest) = tokensFrom 0 (position + t.length) rest := by
  induction t generalizing position with
  | nil => rfl
  | cons c t ih =>
    rw [List.cons_append, List.length_cons, tokensFrom, ih, Nat.add_right_comm, Nat.add_assoc]

theorem tokensFrom_blanks {blanks : Text} (hblank : ∀ c ∈ blanks, isBlank c = true) (rest : Text)
    (position : Nat) :
    tokensFrom 0 position (blanks ++ rest) = tokensFrom 0 (position + blanks.length) rest := by
  induction blanks generalizing position with
  | nil => rfl
  | cons c blanks ih =>
    have hrest := ih (fun d hd => hblank d (List.mem_cons_of_mem c hd)) (position + 1)
    rw [List.cons_append, tokensFrom, if_pos (hblank c List.mem_cons_self), hrest, List.length_cons,
      Nat.add_right_comm, Nat.add_assoc]

/-- The token of a lexeme and the tokens of what follows it. -/
theorem tokensFrom_lexeme {l : Lexeme} {t : Text} (hl : l.Reads t) (position : Nat) :
    tokensFrom 0 position (l.text ++ t) = (⟨l.kind, l.text, position⟩ :: ·) <$>
      tokensFrom 0 (position + l.text.length) t := by
  obtain ⟨⟨c, rest, hcut, hblank⟩, htoken⟩ := hl
  have hcovered := tokensFrom_covered rest t (position + 1)
  have htake : (c :: (rest ++ t)).take (rest.length + 1) = c :: rest := by simp
  rw [hcut, List.cons_append] at htoken ⊢
  rw [tokensFrom, if_neg (by rw [hblank]; exact Bool.false_ne_true), htoken]
  simp only [List.length_cons, Nat.add_sub_cancel, hcovered, htake]
  rw [Nat.add_right_comm, Nat.add_assoc position]
  cases tokensFrom 0 (position + (rest.length + 1)) t <;> rfl

theorem exists_tokensFrom_of_lexed {ls : List Lexeme} {t : Text} (h : Lexed ls t)
    (position : Nat) :
    ∃ tokens, tokensFrom 0 position t = .ok tokens ∧ tokens.map Token.lexeme = ls := by
  induction h generalizing position with
  | nil hblank =>
    rename_i blanks
    have h := tokensFrom_blanks hblank [] position
    rw [List.append_nil] at h
    exact ⟨[], h, rfl⟩
  | @cons blanks text l ls hblank hl hrest ih =>
    obtain ⟨tokens, htokens, hmap⟩ := ih (position + blanks.length + l.text.length)
    refine ⟨⟨l.kind, l.text, position + blanks.length⟩ :: tokens, ?_,
      by rw [List.map_cons, hmap]; rfl⟩
    rw [List.append_assoc, tokensFrom_blanks hblank, tokensFrom_lexeme hl, htokens]
    rfl

/-- A row of lexemes is read back as tokens. -/
theorem tokenize_of_lexed {ls : List Lexeme} {body : Text} (h : Lexed ls body) :
    ∃ tokens, tokenize body = .ok tokens ∧ tokens.map Token.lexeme = ls :=
  exists_tokensFrom_of_lexed h 0

/-- Lexemes each of which is read as it is in front of a blank and directly in front of the
next. -/
inductive Row : List Lexeme → Prop where
  | nil : Row []
  | cons {l : Lexeme} {ls : List Lexeme}
      (hblank : ∀ t : Text, t.head?.all isBlank = true → l.Reads t)
      (hnext : ∀ next, ls.head? = some next → ∀ t, l.Reads (next.text ++ t)) (hrest : Row ls) :
      Row (l :: ls)

/-- Blanks can be put between lexemes that are read as they are without them. -/
theorem Row.lexed {ls : List Lexeme} {t : Text} (h : Spaced ls t) (hrow : Row ls) : Lexed ls t := by
  induction h with
  | nil hblank => exact .nil hblank
  | @cons blanks text l ls hblank hrest ih =>
    cases hrow with
    | cons hend hnext hrow =>
      refine .cons hblank ?_ (ih hrow)
      cases hrest with
      | nil hbehind =>
        refine hend _ ?_
        cases text with
        | nil => rfl
        | cons c text => exact hbehind c List.mem_cons_self
      | @cons between text' next ls hbetween hrest =>
        cases between with
        | nil => simpa using hnext next rfl text'
        | cons c between => exact hend _ (hbetween c List.mem_cons_self)

theorem Spaced.next {l : Lexeme} {ls : List Lexeme} {t : Text} (h : Spaced ls t) :
    Spaced (l :: ls) (l.text ++ t) :=
  .cons (fun _ hc => absurd hc List.not_mem_nil) h

theorem Spaced.blank {c : Char} (hc : isBlank c = true) {ls : List Lexeme} {t : Text}
    (h : Spaced ls t) : Spaced ls (c :: t) := by
  cases h with
  | nil hblank => exact .nil (List.forall_mem_cons.mpr ⟨hc, hblank⟩)
  | cons hblank hrest => exact .cons (List.forall_mem_cons.mpr ⟨hc, hblank⟩) hrest

theorem Spaced.blanks {blanks : Text} (hblank : ∀ c ∈ blanks, isBlank c = true) {ls : List Lexeme}
    {t : Text} (h : Spaced ls t) : Spaced ls (blanks ++ t) := by
  induction blanks with
  | nil => exact h
  | cons c blanks ih =>
    exact .blank (hblank c List.mem_cons_self) (ih fun d hd => hblank d (List.mem_cons_of_mem c hd))

theorem Spaced.append {ls ls' : List Lexeme} {t t' : Text} (h : Spaced ls t)
    (h' : Spaced ls' t') : Spaced (ls ++ ls') (t ++ t') := by
  induction h with
  | nil hblank => exact h'.blanks hblank
  | cons hblank _ ih =>
    rw [List.append_assoc]
    exact .cons hblank ih

/-- Lexemes without blanks. -/
theorem spaced_flatMap (ls : List Lexeme) : Spaced ls (ls.flatMap (·.text)) := by
  induction ls with
  | nil => exact .nil nofun
  | cons l ls ih => exact ih.next

/-- A row that a name or a number can stand in front of: it is empty, or what it begins with
ends them. -/
def Closes (ls : List Lexeme) : Prop :=
  ∀ next, ls.head? = some next → ∀ t, Ends (next.text ++ t)

/-- A name, a variable or a number in front of a row. -/
theorem Row.word {l : Lexeme} {ls : List Lexeme} (hl : ∀ {t}, Ends t → l.Reads t) (hls : Closes ls)
    (hrow : Row ls) : Row (l :: ls) := by
  refine .cons (fun t ht => hl ?_) (fun next hnext t => hl (hls next hnext t)) hrow
  intro c hc
  rw [hc] at ht
  exact .inl ht

/-- A lexeme that is read as it is in front of anything. -/
theorem Row.free {l : Lexeme} {ls : List Lexeme} (hl : ∀ {t}, l.Reads t) (hrow : Row ls) :
    Row (l :: ls) :=
  .cons (fun _ _ => hl) (fun _ _ _ => hl) hrow

/-- An equals sign in front of a row that does not go on like an arrow. -/
theorem Row.equals {ls : List Lexeme}
    (hls : ∀ next, ls.head? = some next → ∃ c, next.text.head? = some c ∧ c ≠ '>') (hrow : Row ls) :
    Row (.mark '=' :: ls) := by
  refine .cons (fun t ht => reads_mark ?_) (fun next hnext t => reads_mark ?_) hrow
  · have hne : t.head? ≠ some '>' := by
      intro h
      rw [h] at ht
      exact absurd ht (by decide)
    simp [hne]
  · obtain ⟨c, hc, hne⟩ := hls next hnext
    have hhead : (next.text ++ t).head? = some c := by
      rw [List.head?_append, hc]
      rfl
    simp [hhead, hne]

end ViewContract.Signature
