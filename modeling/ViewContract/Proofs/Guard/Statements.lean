/-
ViewContract.Proofs.Guard.Statements — guard text as a list of statements.

Guards are written as one text, with a line feed before each guard but the very first. Here the
text is taken apart into the statements it consists of:

  §1 the statements of guards, one for each in order (`Guard.Statements`), which put together with
     line feeds between them are the text (`guardText_eq_ok_iff`).
  §2 how many there are, and how each of them opens.
  §3 no statement has a line feed inside, whatever is written in it (`Guard.oneLine_statement`),
     so the text is cut at its line feeds into the statements again.
-/
import ViewContract.Proofs.OutOfRange
import ViewContract.Proofs.Template.Quoted
import ViewContract.Proofs.Text.ClassName
import ViewContract.Proofs.Text.Lines

namespace ViewContract

open Text

/-! ## 1. Statements and their text -/

/-- The statements of guards after `count` others, one for each guard in order. -/
inductive Guard.Statements (δ : Delimiters) : Nat → List Guard → List Text → Prop where
  | nil {count : Nat} : Statements δ count [] []
  | cons {count : Nat} {g : Guard} {gs : List Guard} {statement : Text} {others : List Text}
      (hfirst : g.statement δ (0 < count) = .ok statement)
      (hrest : Statements δ (count + 1) gs others) :
      Statements δ count (g :: gs) (statement :: others)

/-- Statements as they follow `count` others: with a line feed before each but the very first. -/
def joined (count : Nat) (statements : List Text) : Text :=
  if 0 < count then statements.flatMap ('\n' :: ·) else ['\n'].intercalate statements

theorem intercalate_cons (separator first : Text) (others : List Text) :
    separator.intercalate (first :: others) = first ++ others.flatMap (separator ++ ·) := by
  induction others generalizing first with
  | nil => simp
  | cons second others ih =>
    rw [List.intercalate_cons_cons, ih, List.flatMap_cons]
    simp

theorem joined_cons (count : Nat) (statement : Text) (others : List Text) :
    joined count (statement :: others)
      = (if 0 < count then ['\n'] else []) ++ statement ++ joined (count + 1) others := by
  unfold joined
  by_cases h : 0 < count
  · simp [h]
  · simp [h, intercalate_cons]

/-- What is written for guards is the text of their statements. -/
theorem statementsAfter_eq_ok_iff {δ : Delimiters} {count : Nat} {gs : List Guard} {t : Text} :
    Guard.statementsAfter δ count gs = .ok t ↔
      ∃ statements, Guard.Statements δ count gs statements ∧ t = joined count statements := by
  induction gs generalizing count t with
  | nil =>
    constructor
    · intro h
      refine ⟨[], .nil, ?_⟩
      obtain rfl := Except.ok.inj h
      simp [joined]
    · rintro ⟨_, hnil, rfl⟩
      cases hnil
      simp [Guard.statementsAfter, joined]
  | cons g gs ih =>
    constructor
    · intro h
      obtain ⟨statement, hstatement, h⟩ := exists_of_bind_eq_ok h
      obtain ⟨later, hlater, h⟩ := exists_of_bind_eq_ok h
      obtain ⟨others, hothers, rfl⟩ := ih.mp hlater
      obtain rfl := Except.ok.inj h
      exact ⟨statement :: others, .cons hstatement hothers,
        (joined_cons count statement others).symm⟩
    · rintro ⟨_, hcons, rfl⟩
      cases hcons with
      | @cons _ _ _ statement others hstatement hothers =>
        rw [Guard.statementsAfter, hstatement, ih.mpr ⟨others, hothers, rfl⟩, joined_cons]
        rfl

/-- What comes after some statements is written after as many as they are. -/
theorem Guard.statementsAfter_append {δ : Delimiters} {count : Nat} {gs gs' : List Guard}
    {t t' : Text}
    (h : statementsAfter δ count gs = .ok t)
    (h' : statementsAfter δ (count + gs.length) gs' = .ok t') :
    statementsAfter δ count (gs ++ gs') = .ok (t ++ t') := by
  induction gs generalizing count t with
  | nil =>
    obtain rfl := Except.ok.inj h
    exact h'
  | cons g gs ih =>
    obtain ⟨statement, hstatement, h⟩ := exists_of_bind_eq_ok h
    obtain ⟨others, hothers, h⟩ := exists_of_bind_eq_ok h
    obtain rfl := Except.ok.inj h
    rw [List.length_cons, ← Nat.add_assoc, Nat.add_right_comm] at h'
    rw [List.cons_append, statementsAfter, hstatement, ih hothers h']
    simp [bind, Except.bind, pure, Except.pure]

/-- The guards of declarations as text are their statements with line feeds between them. -/
theorem guardText_eq_ok_iff {δ : Delimiters} {ds : List Declaration} {t : Text} :
    guardText δ ds = .ok t ↔ ∃ statements,
      Guard.Statements δ 0 (ds.flatMap Declaration.guards) statements ∧
        t = ['\n'].intercalate statements :=
  statementsAfter_eq_ok_iff

/-! ## 2. Number and openings -/

/-- A declaration has one guard, and one more if it has a type. -/
theorem Declaration.length_guards (d : Declaration) :
    d.guards.length = 1 + if d.type.isSome then 1 else 0 := by
  unfold guards typeGuards
  split <;> simp [*]

theorem length_flatMap_guards (ds : List Declaration) :
    (ds.flatMap Declaration.guards).length = ds.length + ds.countP (·.type.isSome) := by
  induction ds with
  | nil => rfl
  | cons d ds ih =>
    rw [List.flatMap_cons, List.length_append, ih, d.length_guards, List.length_cons,
      List.countP_cons]
    omega

namespace Guard.Statements

variable {δ : Delimiters} {count : Nat} {gs : List Guard} {statements : List Text}

theorem length_eq (h : Statements δ count gs statements) : statements.length = gs.length := by
  induction h with
  | nil => rfl
  | cons _ _ ih => rw [List.length_cons, List.length_cons, ih]

/-- Each statement is that of the guard at its place. -/
theorem exists_guard (h : Statements δ count gs statements) {i : Nat} {statement : Text}
    (hi : statements[i]? = some statement) :
    ∃ g, gs[i]? = some g ∧ g.statement δ (0 < count + i) = .ok statement := by
  induction h generalizing i with
  | nil => exact nomatch hi
  | @cons count g gs first others hfirst _ ih =>
    cases i with
    | zero =>
      obtain rfl := Option.some.inj hi
      exact ⟨g, rfl, hfirst⟩
    | succ i =>
      obtain ⟨g', hg', hstatement⟩ := ih hi
      refine ⟨g', hg', ?_⟩
      rw [← hstatement, Nat.add_assoc, Nat.add_comm 1 i]

end Guard.Statements

/-- How a statement opens: with a block tag that has a minus sign if it is to trim. -/
def Delimiters.opensGuard (δ : Delimiters) (trim : Bool) : Text :=
  δ.blockStart ++ (if trim then ['-'] else []) ++ " if ".toList

/-- The action of a guard stands between its two block tags. -/
theorem Guard.exists_action_of_statement {δ : Delimiters} {trim : Bool} {g : Guard} {t : Text}
    (h : g.statement δ trim = .ok t) : ∃ action, g.action δ = .ok action ∧
      t = δ.tag trim ("if ".toList ++ g.condition) ++ action ++ δ.tag false "endif".toList := by
  obtain ⟨action, haction, h⟩ := exists_of_bind_eq_ok h
  exact ⟨action, haction, (Except.ok.inj h).symm⟩

theorem Guard.opensGuard_prefix {δ : Delimiters} {trim : Bool} {g : Guard} {t : Text}
    (h : g.statement δ trim = .ok t) : δ.opensGuard trim <+: t := by
  obtain ⟨action, _, rfl⟩ := Guard.exists_action_of_statement h
  simp [Delimiters.opensGuard, Delimiters.tag]

/-! ## 3. One line each -/

/-- Delimiters without a line feed. -/
structure Delimiters.OneLine (δ : Delimiters) : Prop where
  blockStart : '\n' ∉ δ.blockStart
  blockEnd : '\n' ∉ δ.blockEnd
  variableStart : '\n' ∉ δ.variableStart
  variableEnd : '\n' ∉ δ.variableEnd

theorem Delimiters.oneLine_default : ({} : Delimiters).OneLine :=
  ⟨by decide, by decide, by decide, by decide⟩

theorem not_feed_mem_quoted (t : Text) : '\n' ∉ quoted t :=
  Template.not_mem_quoted (.inl rfl) t

theorem not_feed_mem_write (layout : Number.Layout) (digits : Nat) (power : Int) :
    '\n' ∉ layout.write digits power := by
  obtain ⟨s, htext, _⟩ := Number.exists_spelling layout digits power
  rw [htext]
  intro hmem
  exact absurd (s.mem_text hmem) (by decide)

theorem Number.Binary64.not_feed_mem_text (x : Number.Binary64) : '\n' ∉ x.text := by
  cases x with
  | nan => decide
  | infinite negative => cases negative <;> decide
  | finite negative m e =>
    have hmagnitude : '\n' ∉ (if m = 0 then "0.0".toList
        else Number.standardLayout.write (Number.Shortest.decimal m e).1
          (Number.Shortest.decimal m e).2) := by
      split
      · decide
      · exact not_feed_mem_write _ _ _
    unfold text
    cases negative with
    | false => exact hmagnitude
    | true => exact List.not_mem_cons_of_ne_of_not_mem (by decide) hmagnitude

/-- No default is written with a line feed. -/
theorem Literal.not_feed_mem_source {l : Literal} {t : Text} (h : l.source = .ok t) : '\n' ∉ t := by
  cases l with
  | null =>
    obtain rfl := Except.ok.inj h
    decide
  | float x =>
    obtain rfl := Except.ok.inj h
    exact x.not_feed_mem_text
  | string s =>
    obtain rfl := Except.ok.inj h
    exact not_feed_mem_quoted s
  | int n =>
    have hdigits : '\n' ∉ Nat.toDigits 10 n.natAbs := fun hmem =>
      absurd (isDigit_of_mem_toDigits hmem) (by decide)
    have htext := eq_ok_of_mapError h
    unfold Number.decimalText? at htext
    split at htext
    · exact nomatch htext
    · obtain rfl := Except.ok.inj htext
      unfold Number.decimalText
      simp only
      split
      · exact List.not_mem_cons_of_ne_of_not_mem (by decide) hdigits
      · exact hdigits

section oneLine

variable {δ : Delimiters} {g : Guard}

theorem Delimiters.OneLine.tag (hδ : δ.OneLine) {trim : Bool} {content : Text}
    (h : '\n' ∉ content) : '\n' ∉ δ.tag trim content := by
  have := hδ.blockStart
  have := hδ.blockEnd
  cases trim <;> simp [Delimiters.tag, *]

theorem Delimiters.OneLine.output (hδ : δ.OneLine) {content : Text} (h : '\n' ∉ content) :
    '\n' ∉ δ.output content := by
  have := hδ.variableStart
  have := hδ.variableEnd
  simp [Delimiters.output, *]

theorem not_feed_mem_callText {function : Text} {arguments : List Text}
    (hfunction : '\n' ∉ function)
    (harguments : ∀ argument ∈ arguments, '\n' ∉ argument) :
    '\n' ∉ callText function arguments := by
  have hlist : '\n' ∉ ", ".toList.intercalate arguments := by
    intro hmem
    rcases mem_of_mem_intercalate hmem with hcomma | ⟨argument, hargument, hmem⟩
    · exact absurd hcomma (by decide)
    · exact harguments argument hargument hmem
  unfold callText
  simp only [List.mem_append, List.mem_cons, List.not_mem_nil, or_false, not_or]
  exact ⟨⟨hfunction, by decide, hlist⟩, by decide⟩

theorem Guard.not_feed_mem_condition (hname : '\n' ∉ g.name) : '\n' ∉ g.condition := by
  have hfails : ∀ test argument : Text, '\n' ∉ test →
      '\n' ∉ failsText g.name test (quoted argument) := by
    intro test argument htest
    have hcall : '\n' ∉ callText test [quoted argument] := by
      refine not_feed_mem_callText htest ?_
      simpa using not_feed_mem_quoted argument
    simp [failsText, hname, hcall]
  have habsent : '\n' ∉ absentText g.name := by simp [absentText, hname]
  cases g with
  | present name => exact habsent
  | fallback name default => exact habsent
  | ofKind name kind => exact hfails kindTest _ (by decide)
  | ofClass name path => exact hfails classTest _ (by decide)

theorem Guard.not_feed_mem_action (hδ : δ.OneLine) (hname : '\n' ∉ g.name) {t : Text}
    (h : g.action δ = .ok t) : '\n' ∉ t := by
  cases g with
  | present name =>
    obtain rfl := Except.ok.inj h
    refine hδ.output (not_feed_mem_callText (by decide) ?_)
    simpa using not_feed_mem_quoted name
  | fallback name default =>
    obtain ⟨value, hvalue, h⟩ := exists_of_bind_eq_ok h
    obtain rfl := Except.ok.inj h
    have hset : '\n' ∉ name := hname
    exact hδ.tag (by simp [hset, Literal.not_feed_mem_source hvalue])
  | ofKind name kind =>
    obtain rfl := Except.ok.inj h
    refine hδ.output (not_feed_mem_callText (by decide) ?_)
    have hset : '\n' ∉ name := hname
    simp [not_feed_mem_quoted, hset]
  | ofClass name path =>
    obtain rfl := Except.ok.inj h
    refine hδ.output (not_feed_mem_callText (by decide) ?_)
    simp [not_feed_mem_quoted]

/-- **A statement is one line**, whatever path or default is written in it. -/
theorem Guard.oneLine_statement (hδ : δ.OneLine) (hname : '\n' ∉ g.name) {trim : Bool} {t : Text}
    (h : g.statement δ trim = .ok t) : '\n' ∉ t := by
  obtain ⟨action, haction, rfl⟩ := Guard.exists_action_of_statement h
  have hif : '\n' ∉ "if ".toList ++ g.condition := by
    simp [Guard.not_feed_mem_condition hname]
  have hendif : '\n' ∉ "endif".toList := by decide
  simp only [List.mem_append, not_or]
  exact ⟨⟨hδ.tag hif, Guard.not_feed_mem_action hδ hname haction⟩, hδ.tag hendif⟩

end oneLine

/-- Cut at its line feeds, a text of one-line statements is the statements again. -/
theorem splitOn_intercalate_statements {statements : List Text} (hne : statements ≠ [])
    (h : ∀ statement ∈ statements, '\n' ∉ statement) :
    splitOn '\n' (['\n'].intercalate statements) = statements := by
  rw [splitOn_eq]
  exact List.splitOn_intercalate '\n' h hne

end ViewContract
