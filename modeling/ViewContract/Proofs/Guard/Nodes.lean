/-
ViewContract.Proofs.Guard.Nodes — guards as nodes.

A guard is read back as one conditional part: its condition, and in it what the guard does.
The readers go down the levels of expressions one by one, so each level gets a lemma that says
what it reads and that it leaves what follows:

  §1 the expressions and the node of a guard.
  §2 tokens at which an expression stops.
  §3 operands: constants, names, calls and literals.
  §4 conditions.
  §5 guards (`readNodes_guard`).

The readers are bounded by fuel. Each lemma asks for a least fuel, and the fuel that a template
starts with is always more.
-/
import ViewContract.Proofs.Guard.Scan
import ViewContract.Proofs.Number.Grouped
import ViewContract.Template.Render

namespace ViewContract.Template

open ViewContract.Text

/-! ## 1. The nodes of guards -/

/-- A variable is missing or null. -/
def absentExpr (name : Text) : Expr :=
  .or (.not (.test (.name name) "defined".toList [])) (.test (.name name) "none".toList [])

/-- A variable is not null and fails a test. -/
def failsExpr (name test argument : Text) : Expr :=
  .and (.not (.test (.name name) "none".toList []))
    (.not (.test (.name name) test [.const (.string argument)]))

/-- What a word stands for: a constant, or the variable of that name. -/
def wordExpr (word : Text) : Expr :=
  (constantOfName? word).elim (.name word) .const

/-- An argument as an expression. -/
def Argument.expr : Argument → Expr
  | .text t => .const (.string t)
  | .name w => .name w

/-- A constant with a sign. -/
def signedExpr (negative : Bool) (v : Value) : Expr :=
  if negative then .neg (.const v) else .const v

end ViewContract.Template

namespace ViewContract

open Template Text

/-- A literal as an expression. -/
def Literal.expr : Literal → Expr
  | .null => .const .null
  | .int n => signedExpr (n < 0) (.int n.natAbs)
  | .float (.finite negative m e) => signedExpr negative (.float (.finite false m e))
  | .float x => .const (.float x)
  | .string t => .const (.string t)

/-- The condition of a guard. -/
def Guard.conditionExpr : Guard → Expr
  | .present name | .fallback name _ => absentExpr name
  | .ofKind name kind => failsExpr name kindTest kind.name.toList
  | .ofClass name path => failsExpr name classTest path

/-- What a guard does. -/
def Guard.actionNode : Guard → Node
  | .present name => .output (.call raiseUndefined [.const (.string name)])
  | .fallback name default => .assign name default.expr
  | .ofKind name kind =>
    .output (.call raiseWrongType
      [.const (.string name), .const (.string kind.name.toList), .name name])
  | .ofClass name path =>
    .output (.call raiseWrongClass [.const (.string name), .const (.string path)])

/-- A guard as a node. -/
def Guard.node (g : Guard) : Node :=
  .branch g.conditionExpr [g.actionNode]

end ViewContract

namespace ViewContract.Template

open ViewContract.Text

/-! ## 2. Where expressions stop -/

/-- Tokens at which no expression goes on: the first is neither a name nor an opening
parenthesis. -/
def Stops (tokens : List Token) : Prop :=
  ∃ t rest, tokens = t :: rest ∧ t.kind ≠ .name ∧ (t.kind = .operator → t.text ≠ "(".toList)

theorem Stops.name {tokens : List Token} (h : Stops tokens) (word : String) :
    startsWith .name word tokens = false := by
  obtain ⟨t, rest, rfl, hname, _⟩ := h
  simp [startsWith, hname]

theorem Stops.parenthesis {tokens : List Token} (h : Stops tokens) :
    startsWith .operator "(" tokens = false := by
  obtain ⟨t, rest, rfl, _, htext⟩ := h
  by_cases hkind : t.kind = .operator
  · simp only [startsWith, Bool.and_eq_false_iff, decide_eq_false_iff_not]
    exact .inr (htext hkind)
  · simp [startsWith, hkind]

/-- A name that is no word of the language. -/
def IsFree (name : Text) : Prop :=
  isReserved name = false

theorem IsFree.ne {name : Text} (h : IsFree name) (word : String) (hword : word ∈ reservedWords) :
    name ≠ word.toList := by
  rintro rfl
  have hreserved : isReserved word.toList = true :=
    List.any_eq_true.mpr ⟨word, hword, decide_eq_true rfl⟩
  exact Bool.false_ne_true (h.symm.trans hreserved)

theorem IsFree.constantOfName? {name : Text} (h : IsFree name) :
    Template.constantOfName? name = none := by
  have hno : ∀ v w : String, v ∈ reservedWords → w ∈ reservedWords →
      ¬ (decide (name = v.toList) || decide (name = w.toList)) = true := by
    intro v w hv hw
    simp [h.ne v hv, h.ne w hw]
  rw [Template.constantOfName?, if_neg (hno "none" "None" (by decide) (by decide)),
    if_neg (hno "true" "True" (by decide) (by decide)),
    if_neg (hno "false" "False" (by decide) (by decide))]

theorem IsFree.startsWith {name : Text} (h : IsFree name) (word : String)
    (hword : word ∈ reservedWords) (line : Nat) (rest : List Token) :
    Template.startsWith .name word (⟨line, .name, name⟩ :: rest) = false := by
  have hne := h.ne word hword
  simp only [Template.startsWith, Bool.and_eq_false_iff, decide_eq_false_iff_not]
  exact .inr hne

/-! ## 3. Operands -/

section operands

variable {fuel : Nat} {tokens rest : List Token} {e : Expr} {line : Nat}

theorem readSigned_constant {t : Token} (hkind : t.kind ≠ .operator)
    (h : readPrimary (t :: rest) = some (e, rest)) (he : ∀ name, e ≠ .name name) :
    readSigned (fuel + 1) (t :: rest) = some (e, rest) := by
  have hminus : startsWith .operator "-" (t :: rest) = false := by
    simp [startsWith, hkind]
  rw [readSigned, if_neg (by rw [hminus]; simp), h]
  simp only [Option.bind_eq_bind, Option.bind_some]
  rfl

/-- A word that is not called is read as what it stands for. -/
theorem readSigned_word (word : Text) (hrest : startsWith .operator "(" rest = false) :
    readSigned (fuel + 1) (⟨line, .name, word⟩ :: rest) = some (wordExpr word, rest) := by
  have hminus : startsWith .operator "-" (⟨line, .name, word⟩ :: rest) = false := rfl
  rw [readSigned, if_neg (by rw [hminus]; simp), readPrimary, wordExpr]
  cases constantOfName? word with
  | none => simp [hrest]
  | some v => rfl

theorem readSigned_name {name : Text} (hname : IsFree name)
    (hrest : startsWith .operator "(" rest = false) :
    readSigned (fuel + 1) (⟨line, .name, name⟩ :: rest) = some (.name name, rest) := by
  rw [readSigned_word name hrest, wordExpr, hname.constantOfName?]
  rfl

/-- An operand alone is a whole expression. -/
theorem readOr_signed (fuel : Nat) (h : readSigned (fuel + 1) tokens = some (e, rest))
    (hrest : Stops rest) (hnot : startsWith .name "not" tokens = false) :
    readOr (fuel + 4) tokens = some (e, rest) := by
  have htests : readTests (fuel + 1) e rest = some (e, rest) := by
    rw [readTests, if_neg (by rw [hrest.name]; simp)]
  have hread : readNot (fuel + 2) tokens = some (e, rest) := by
    rw [readNot, if_neg (by rw [hnot]; simp), h]
    exact htests
  have hand : readAnd (fuel + 3) tokens = some (e, rest) := by
    rw [readAnd, hread]
    simp [hrest.name]
  rw [readOr, hand]
  simp [hrest.name]

/-- An argument that can be read: a variable is no word of the language. -/
def Argument.Readable : Argument → Prop
  | .text _ => True
  | .name w => IsFree w

theorem readOr_argument {a : Argument} (ha : a.Readable) (spaced : Bool) (hrest : Stops rest) :
    readOr (fuel + 4) ((a.chunk spaced).token line :: rest) = some (a.expr, rest) := by
  cases a with
  | text t =>
    refine readOr_signed fuel (readSigned_constant (by simp [Chunk.token, Argument.chunk]) ?_ nofun)
      hrest (by simp [startsWith, Chunk.token, Argument.chunk])
    simp [readPrimary, Chunk.token, Argument.chunk, unquote_quoted, Argument.expr]
  | name w =>
    have hw : IsFree w := ha
    exact readOr_signed fuel (readSigned_name hw hrest.parenthesis) hrest
      (hw.startsWith "not" (by decide) line rest)

theorem stops_mark {c : Char} (hc : c ≠ '(') : Stops ((Chunk.mark false c).token line :: rest) :=
  ⟨_, rest, rfl, by simp [Chunk.token, Chunk.mark], by simp [Chunk.token, Chunk.mark, hc]⟩

theorem readArguments_chunks (line : Nat) (rest : List Token) {later : List Argument} {a : Argument}
    (hargs : ∀ b ∈ a :: later, b.Readable) (spaced : Bool) :
    readArguments (fuel + later.length + 5) ((a.chunk spaced :: (laterChunks later ++
        [.mark false ')'])).map (Chunk.token line) ++ rest)
      = some ((a :: later).map Argument.expr, rest) := by
  have hopen : ∀ (a : Argument) (spaced : Bool) (tokens : List Token),
      startsWith .operator ")" ((a.chunk spaced).token line :: tokens) = false := by
    intro a spaced tokens
    cases a <;> simp [startsWith, Chunk.token, Argument.chunk]
  induction later generalizing fuel a spaced with
  | nil =>
    have hread : readOr (fuel + 4) ((a.chunk spaced).token line ::
        (Chunk.mark false ')').token line :: rest)
        = some (a.expr, (Chunk.mark false ')').token line :: rest) :=
      readOr_argument (hargs a List.mem_cons_self) spaced (stops_mark (by decide))
    simp only [laterChunks, List.flatMap_nil, List.nil_append, List.map_cons, List.map_nil,
      List.cons_append, List.length_nil, Nat.add_zero]
    rw [readArguments, if_neg (by rw [hopen]; simp), hread]
    simp [startsWith, expect, Chunk.token, Chunk.mark]
  | cons b later ih =>
    have hread : ∀ tokens, readOr (fuel + later.length + 1 + 4) ((a.chunk spaced).token line ::
        (Chunk.mark false ',').token line :: tokens)
        = some (a.expr, (Chunk.mark false ',').token line :: tokens) := fun tokens =>
      readOr_argument (hargs a List.mem_cons_self) spaced (stops_mark (by decide))
    have hlater : readArguments (fuel + later.length + 5) _ = _ :=
      ih (fun c hc => hargs c (List.mem_cons_of_mem a hc)) true
    have hfuel : fuel + (b :: later).length + 5 = (fuel + later.length + 5) + 1 := by
      rw [List.length_cons]
      omega
    rw [hfuel, laterChunks_cons, List.cons_append, List.cons_append, List.map_cons, List.map_cons,
      List.cons_append, List.cons_append, readArguments, if_neg (by rw [hopen]; simp), hread]
    have hcomma : ∀ tokens, startsWith .operator "," ((Chunk.mark false ',').token line :: tokens)
        = true := fun _ => rfl
    simp only [Option.bind_eq_bind, Option.bind_some, hcomma, if_true, List.drop_succ_cons,
      List.drop_zero, hlater]
    rfl

/-- A call is read with all its arguments. -/
theorem readSigned_call {function : Text} {first : Argument} {later : List Argument}
    (hf : IsFree function) (hargs : ∀ a ∈ first :: later, a.Readable) :
    readSigned (fuel + later.length + 6)
        ((callChunks function first later).map (Chunk.token line) ++ rest)
      = some (.call function ((first :: later).map Argument.expr), rest) := by
  have hread : readArguments (fuel + later.length + 5) _ = _ :=
    readArguments_chunks line rest hargs false
  have hcut : (callChunks function first later).map (Chunk.token line) ++ rest
      = ⟨line, .name, function⟩ :: (Chunk.mark false '(').token line ::
          ((first.chunk false :: (laterChunks later ++ [.mark false ')'])).map (Chunk.token line) ++
            rest) := rfl
  have hminus : ∀ tokens, startsWith .operator "-" (⟨line, .name, function⟩ :: tokens) = false :=
    fun _ => rfl
  have hopen : ∀ tokens, startsWith .operator "(" ((Chunk.mark false '(').token line :: tokens)
      = true := fun _ => rfl
  rw [hcut, readSigned, if_neg (by rw [hminus]; simp), readPrimary]
  simp only [hf.constantOfName?, Option.elim_none, Option.bind_eq_bind, Option.bind_some, hopen,
    if_true, List.drop_succ_cons, List.drop_zero, hread]
  rfl

theorem readSigned_signed {kind : TokenKind} {t : Text} {v : Value} {negative : Bool}
    (hkind : kind ≠ .operator)
    (h : ∀ rest, readPrimary (⟨line, kind, t⟩ :: rest) = some (.const v, rest)) :
    readSigned (fuel + 2) ((signedChunks negative kind t).map (Chunk.token line) ++ rest)
      = some (signedExpr negative v, rest) := by
  have hconstant : ∀ fuel, readSigned (fuel + 1) (⟨line, kind, t⟩ :: rest)
      = some (.const v, rest) := fun fuel => readSigned_constant hkind (h rest) nofun
  cases negative with
  | false => exact hconstant (fuel + 1)
  | true =>
    have hminus : ∀ tokens, startsWith .operator "-" ((Chunk.mark true '-').token line :: tokens)
        = true := fun _ => rfl
    have hcut : (signedChunks true kind t).map (Chunk.token line) ++ rest
        = (Chunk.mark true '-').token line :: ⟨line, kind, t⟩ :: rest := rfl
    rw [hcut, readSigned, if_pos (hminus _), List.drop_succ_cons, List.drop_zero, hconstant]
    rfl

/-- A literal is read back. -/
theorem readSigned_literal {l : Literal} (hl : l.Writable) :
    readSigned (fuel + 2) (l.chunks.map (Chunk.token line) ++ rest) = some (l.expr, rest) := by
  cases l with
  | null =>
    exact readSigned_constant (by simp [Chunk.token, Chunk.word]) rfl (by simp [Literal.expr])
  | int n =>
    refine readSigned_signed (by simp) fun rest => ?_
    have hn : Number.decimalLength n.natAbs ≤ Number.digitLimit := hl
    simp [readPrimary, Number.readInt?_toDigits hn]
  | float x =>
    cases x with
    | finite negative m e =>
      obtain ⟨s, htext, hread⟩ := Number.exists_spelling_of_normal hl
      have hfalse : (Number.Binary64.finite false m e).text = s.text := htext false
      refine readSigned_signed (by simp) fun rest => ?_
      simp [readPrimary, hfalse, hread]
    | infinite negative => exact absurd hl id
    | nan => exact absurd hl id
  | string t =>
    refine readSigned_constant (by simp [Chunk.token]) ?_ (by simp [Literal.expr])
    simp [readPrimary, Chunk.token, unquote_quoted, Literal.expr]

end operands

/-! ## 4. Conditions -/

section conditions

variable {fuel : Nat} {tokens rest : List Token} {e : Expr} {line : Nat}

/-- A word of the language as a token. -/
def wordToken (line : Nat) (w : String) : Token :=
  ⟨line, .name, w.toList⟩

theorem readNot_name {name : Text} (hname : IsFree name)
    (hrest : startsWith .operator "(" tokens = false) :
    readNot (fuel + 2) (⟨line, .name, name⟩ :: tokens) =
      readTests (fuel + 1) (.name name) tokens := by
  rw [readNot, if_neg (by rw [hname.startsWith "not" (by decide)]; simp),
    readSigned_name hname hrest]
  rfl

theorem readTests_stop (h : startsWith .name "is" tokens = false) :
    readTests (fuel + 1) e tokens = some (e, tokens) := by
  rw [readTests, if_neg (by rw [h]; simp)]

theorem readTests_is {test : Text} (htest : test ≠ "not".toList)
    (hrest : startsWith .operator "(" rest = false) :
    readTests (fuel + 1) e (wordToken line "is" :: ⟨line, .name, test⟩ :: rest)
      = readTests fuel (.test e test []) rest := by
  have his : ∀ tokens, startsWith .name "is" (wordToken line "is" :: tokens) = true := fun _ => rfl
  have hnot : startsWith .name "not" (⟨line, .name, test⟩ :: rest) = false := by
    simp only [startsWith, Bool.and_eq_false_iff, decide_eq_false_iff_not]
    exact .inr htest
  rw [readTests, if_pos (his _)]
  simp only [List.drop_succ_cons, List.drop_zero, hnot, Bool.false_eq_true, if_false, expectName,
    if_true, Option.bind_eq_bind, Option.bind_some, hrest, Option.pure_def]

theorem readTests_isNot {test : Text} (hrest : startsWith .operator "(" rest = false) :
    readTests (fuel + 1) e
        (wordToken line "is" :: wordToken line "not" :: ⟨line, .name, test⟩ :: rest)
      = readTests fuel (.not (.test e test [])) rest := by
  have his : ∀ tokens, startsWith .name "is" (wordToken line "is" :: tokens) = true := fun _ => rfl
  have hnot : ∀ tokens, startsWith .name "not" (wordToken line "not" :: tokens) = true :=
    fun _ => rfl
  rw [readTests, if_pos (his _)]
  simp only [List.drop_succ_cons, List.drop_zero, hnot, if_true, expectName, Option.bind_eq_bind,
    Option.bind_some, hrest, Bool.false_eq_true, if_false, Option.pure_def]

theorem readTests_isNotCall {test argument : Text} :
    readTests (fuel + 6) e (wordToken line "is" :: wordToken line "not" ::
        ((callChunks test (.text argument) []).map (Chunk.token line) ++ rest))
      = readTests (fuel + 5) (.not (.test e test [.const (.string argument)])) rest := by
  have hargs : ∀ a ∈ [Argument.text argument], a.Readable := by
    simp [Argument.Readable]
  have hread : readArguments (fuel + 0 + 5) _ = _ :=
    readArguments_chunks line rest hargs false
  have hcut : (callChunks test (.text argument) []).map (Chunk.token line) ++ rest
      = ⟨line, .name, test⟩ :: (Chunk.mark false '(').token line ::
          (((Argument.text argument).chunk false :: (laterChunks [] ++ [.mark false ')'])).map
            (Chunk.token line) ++ rest) := rfl
  have his : ∀ tokens, startsWith .name "is" (wordToken line "is" :: tokens) = true := fun _ => rfl
  have hnot : ∀ tokens, startsWith .name "not" (wordToken line "not" :: tokens) = true :=
    fun _ => rfl
  have hopen : ∀ tokens, startsWith .operator "(" ((Chunk.mark false '(').token line :: tokens)
      = true := fun _ => rfl
  rw [hcut, readTests, if_pos (his _)]
  simp only [List.drop_succ_cons, List.drop_zero, hnot, if_true, expectName, Option.bind_eq_bind,
    Option.bind_some, hopen]
  rw [hread]
  rfl

theorem readAnd_single (h : readNot fuel tokens = some (e, rest))
    (hrest : startsWith .name "and" rest = false) : readAnd (fuel + 1) tokens = some (e, rest) := by
  rw [readAnd, h]
  simp [hrest]

/-- The condition that a variable is missing or null. -/
theorem readOr_absent {name : Text} (hname : IsFree name) (hrest : Stops rest) :
    readOr (fuel + 6) ((words (absentWords name)).map (Chunk.token line) ++ rest)
      = some (absentExpr name, rest) := by
  have hcut : (words (absentWords name)).map (Chunk.token line) ++ rest
      = ⟨line, .name, name⟩ :: wordToken line "is" :: wordToken line "not" ::
          wordToken line "defined" :: wordToken line "or" :: ⟨line, .name, name⟩ ::
          wordToken line "is" :: wordToken line "none" :: rest := rfl
  have hleft : ∀ tokens, readAnd (fuel + 5) (⟨line, .name, name⟩ :: wordToken line "is" ::
      wordToken line "not" :: wordToken line "defined" :: wordToken line "or" :: tokens)
      = some (.not (.test (.name name) "defined".toList []), wordToken line "or" :: tokens) := by
    intro tokens
    refine readAnd_single ?_ rfl
    rw [readNot_name hname rfl]
    exact (readTests_isNot rfl).trans (readTests_stop rfl)
  have hright : readOr (fuel + 5) (⟨line, .name, name⟩ :: wordToken line "is" ::
      wordToken line "none" :: rest)
      = some (.test (.name name) "none".toList [], rest) := by
    have hand : readAnd (fuel + 4) (⟨line, .name, name⟩ :: wordToken line "is" ::
        wordToken line "none" :: rest)
        = some (.test (.name name) "none".toList [], rest) := by
      refine readAnd_single ?_ (hrest.name "and")
      rw [readNot_name hname rfl]
      exact (readTests_is (by decide) hrest.parenthesis).trans (readTests_stop (hrest.name "is"))
    rw [readOr, hand]
    simp [hrest.name]
  have hor : ∀ tokens, startsWith .name "or" (wordToken line "or" :: tokens) = true := fun _ => rfl
  rw [hcut, readOr, hleft]
  simp only [Option.bind_eq_bind, Option.bind_some, hor, if_true, List.drop_succ_cons,
    List.drop_zero, hright]
  rfl

/-- The condition that a variable is not null and fails a test. -/
theorem readOr_fails {name test argument : Text} (hname : IsFree name) (hrest : Stops rest) :
    readOr (fuel + 10) ((words (failsWords name) ++
        callChunks test (.text argument) []).map (Chunk.token line) ++ rest)
      = some (failsExpr name test argument, rest) := by
  have hcut : (words (failsWords name) ++
      callChunks test (.text argument) []).map (Chunk.token line) ++ rest
      = ⟨line, .name, name⟩ :: wordToken line "is" :: wordToken line "not" ::
          wordToken line "none" :: wordToken line "and" :: ⟨line, .name, name⟩ ::
          wordToken line "is" :: wordToken line "not" ::
          ((callChunks test (.text argument) []).map (Chunk.token line) ++ rest) := rfl
  have hleft : ∀ tokens, readNot (fuel + 8) (⟨line, .name, name⟩ :: wordToken line "is" ::
      wordToken line "not" :: wordToken line "none" :: wordToken line "and" :: tokens)
      = some (.not (.test (.name name) "none".toList []), wordToken line "and" :: tokens) := by
    intro tokens
    rw [readNot_name hname rfl]
    exact (readTests_isNot rfl).trans (readTests_stop rfl)
  have hright : readAnd (fuel + 8) (⟨line, .name, name⟩ :: wordToken line "is" ::
      wordToken line "not" ::
        ((callChunks test (.text argument) []).map (Chunk.token line) ++ rest))
      = some (.not (.test (.name name) test [.const (.string argument)]), rest) := by
    refine readAnd_single ?_ (hrest.name "and")
    rw [readNot_name hname rfl]
    exact readTests_isNotCall.trans (readTests_stop (hrest.name "is"))
  have hand : ∀ tokens, startsWith .name "and" (wordToken line "and" :: tokens) = true :=
    fun _ => rfl
  have hboth : readAnd (fuel + 9) (⟨line, .name, name⟩ :: wordToken line "is" ::
      wordToken line "not" :: wordToken line "none" :: wordToken line "and" ::
      ⟨line, .name, name⟩ :: wordToken line "is" :: wordToken line "not" ::
      ((callChunks test (.text argument) []).map (Chunk.token line) ++ rest))
      = some (failsExpr name test argument, rest) := by
    rw [readAnd, hleft]
    simp only [Option.bind_eq_bind, Option.bind_some, hand, if_true, List.drop_succ_cons,
      List.drop_zero, hright]
    rfl
  rw [hcut, readOr, hboth]
  simp [hrest.name]

/-- The condition of a guard is read back. -/
theorem readOr_condition {g : Guard} (hname : IsFree g.name) (hrest : Stops rest) :
    readOr (fuel + 10) (g.conditionChunks.map (Chunk.token line) ++ rest)
      = some (g.conditionExpr, rest) := by
  cases g with
  | present name => exact readOr_absent hname hrest
  | fallback name default => exact readOr_absent hname hrest
  | ofKind name kind => exact readOr_fails hname hrest
  | ofClass name path => exact readOr_fails hname hrest

end conditions

/-! ## 5. Guards -/

theorem readExpr_of_fuel (least : Nat) {tokens : List Token} {r : Option (Expr × List Token)}
    (h : ∀ fuel, readOr (fuel + least) tokens = r) (hleast : least ≤ 6 * tokens.length + 6) :
    readExpr tokens = r := by
  obtain ⟨fuel, hfuel⟩ := Nat.exists_eq_add_of_le' hleast
  rw [readExpr, hfuel, h]

section guards

variable {fuel : Nat} {rest : List Token} {line : Nat}

theorem stops_endToken (line : Nat) (rest : List Token) (kind : TagKind) (t : Text) :
    Stops (⟨line, kind.endToken, t⟩ :: rest) := by
  refine ⟨_, rest, rfl, ?_⟩
  cases kind <;> simp [TagKind.endToken]

theorem readExpr_condition {g : Guard} (hname : IsFree g.name) (hrest : Stops rest) :
    readExpr (g.conditionChunks.map (Chunk.token line) ++ rest) = some (g.conditionExpr, rest) := by
  refine readExpr_of_fuel 10 (fun fuel => readOr_condition hname hrest) ?_
  obtain ⟨t, rest, rfl, _⟩ := hrest
  simp
  omega

theorem readExpr_call {function : Text} {first : Argument} {later : List Argument}
    (hf : IsFree function) (hargs : ∀ a ∈ first :: later, a.Readable) (hrest : Stops rest) :
    readExpr ((callChunks function first later).map (Chunk.token line) ++ rest)
      = some (.call function ((first :: later).map Argument.expr), rest) := by
  have hnot : startsWith .name "not" ((callChunks function first later).map (Chunk.token line) ++
      rest) = false := hf.startsWith "not" (by decide) line _
  have hread : ∀ fuel, readOr (fuel + (later.length + 9))
      ((callChunks function first later).map (Chunk.token line) ++ rest)
      = some (.call function ((first :: later).map Argument.expr), rest) := fun fuel =>
    readOr_signed (fuel + later.length + 5) (readSigned_call hf hargs) hrest hnot
  refine readExpr_of_fuel (later.length + 9) hread ?_
  simp [callChunks, laterChunks, List.length_flatMap]
  omega

theorem readExpr_literal {l : Literal} (hl : l.Writable) (hrest : Stops rest) :
    readExpr (l.chunks.map (Chunk.token line) ++ rest) = some (l.expr, rest) := by
  have hnot : startsWith .name "not" (l.chunks.map (Chunk.token line) ++ rest) = false := by
    match l with
    | .null => rfl
    | .int n => cases h : decide (n < 0) <;> simp [Literal.chunks, signedChunks, h] <;> rfl
    | .float (.finite negative m e) => cases negative <;> rfl
    | .string t => rfl
  refine readExpr_of_fuel 5 (fun fuel => ?_) (by omega)
  exact readOr_signed (fuel + 1) (readSigned_literal hl) hrest hnot

/-- The tokens of the end of a conditional part. -/
def endTokens (δ : Delimiters) (line : Nat) : List Token :=
  Tag.meant δ line ⟨.block, false, [.word "endif".toList]⟩

theorem meant_append (δ : Delimiters) (line : Nat) (g : Tag) (rest : List Token) :
    g.meant δ line ++ rest = ⟨line, g.kind.startToken, g.kind.startMark δ ++ signText g.trim⟩ ::
      (g.chunks.map (Chunk.token line) ++ ⟨line, g.kind.endToken, g.kind.endMark δ⟩ :: rest) := by
  simp [Tag.meant]

theorem readNodes_end (δ : Delimiters) :
    readNodes (fuel + 1) (endTokens δ line ++ rest) = some ([], endTokens δ line ++ rest) :=
  rfl

theorem readNodes_call {function : Text} {first : Argument} {later : List Argument}
    (hf : IsFree function) (hargs : ∀ a ∈ first :: later, a.Readable) (δ : Delimiters) :
    readNodes (fuel + 2) (Tag.meant δ line ⟨.output, false, callChunks function first later⟩ ++
        (endTokens δ line ++ rest))
      = some ([.output (.call function ((first :: later).map Argument.expr))],
          endTokens δ line ++ rest) := by
  have hend : Stops (⟨line, TagKind.endToken .output, TagKind.endMark δ .output⟩ ::
      (endTokens δ line ++ rest)) := stops_endToken line _ .output _
  have hexpr : readExpr ((callChunks function first later).map (Chunk.token line) ++ _) = _ :=
    readExpr_call hf hargs hend
  have hkind : ∀ tokens, expectKind .outputEnd (⟨line, TagKind.endToken .output,
      TagKind.endMark δ .output⟩ :: tokens) = some tokens := fun _ => rfl
  rw [meant_append]
  simp only [readNodes, TagKind.startToken, hexpr, Option.bind_eq_bind, Option.bind_some, hkind,
    readNodes_end]
  rfl

theorem readNodes_assign {name : Text} {default : Literal} (hdefault : default.Writable)
    (δ : Delimiters) :
    readNodes (fuel + 2) (Tag.meant δ line
        ⟨.block, false, words ["set".toList, name] ++ .mark true '=' :: default.chunks⟩ ++
        (endTokens δ line ++ rest))
      = some ([.assign name default.expr], endTokens δ line ++ rest) := by
  have hend : Stops (⟨line, TagKind.endToken .block, TagKind.endMark δ .block⟩ ::
      (endTokens δ line ++ rest)) := stops_endToken line _ .block _
  have hexpr : readExpr (default.chunks.map (Chunk.token line) ++ _) = _ :=
    readExpr_literal hdefault hend
  have hkind : ∀ tokens, expectKind .blockEnd (⟨line, TagKind.endToken .block,
      TagKind.endMark δ .block⟩ :: tokens) = some tokens := fun _ => rfl
  have hcut : (words ["set".toList, name] ++ .mark true '=' :: default.chunks).map
      (Chunk.token line) = wordToken line "set" :: ⟨line, .name, name⟩ ::
        (Chunk.mark true '=').token line :: default.chunks.map (Chunk.token line) := by
    rfl
  have hset : ∀ tokens, startsWith .name "set" (wordToken line "set" :: tokens) = true :=
    fun _ => rfl
  have hequals : ∀ tokens, expect .operator "=" ((Chunk.mark true '=').token line :: tokens)
      = some tokens := fun _ => rfl
  have hopen : ∀ t tokens, startsEnd (t :: wordToken line "set" :: tokens) = false := by
    intro t tokens
    rw [startsEnd, show startsWith .name "endif" (wordToken line "set" :: tokens) = false from rfl,
      Bool.and_false]
  rw [meant_append, hcut]
  simp only [List.cons_append, readNodes, TagKind.startToken, hopen, Bool.false_eq_true, if_false,
    hset, if_true, List.drop_succ_cons, List.drop_zero, expectName, Option.bind_eq_bind,
    Option.bind_some, hequals, hexpr, hkind, readNodes_end]
  rfl

/-- What a guard does is read back. -/
theorem readNodes_action {g : Guard} (hg : g.Writable) (δ : Delimiters) :
    readNodes (fuel + 2) (g.actionTag.meant δ line ++ (endTokens δ line ++ rest))
      = some ([g.actionNode], endTokens δ line ++ rest) := by
  have hname : IsFree g.name := hg.notReserved
  cases g with
  | present name =>
    exact readNodes_call (show isReserved raiseUndefined = false by decide)
      (by simp [Argument.Readable]) δ
  | fallback name default => exact readNodes_assign (hg.default name default rfl) δ
  | ofKind name kind =>
    refine readNodes_call (show isReserved raiseWrongType = false by decide) ?_ δ
    simp only [List.mem_cons, List.not_mem_nil, or_false, forall_eq_or_imp, forall_eq]
    exact ⟨trivial, trivial, hname⟩
  | ofClass name path =>
    exact readNodes_call (show isReserved raiseWrongClass = false by decide)
      (by simp [Argument.Readable]) δ

/-- A guard is read back as its node. -/
theorem readNodes_guard {g : Guard} (hg : g.Writable) (δ : Delimiters) (trim : Bool)
    {nodes : List Node} {rest' : List Token}
    (hrest : readNodes (fuel + 2) rest = some (nodes, rest')) :
    readNodes (fuel + 3) ((g.tags trim).flatMap (Tag.meant δ line) ++ rest)
      = some (g.node :: nodes, rest') := by
  have hcut : (g.tags trim).flatMap (Tag.meant δ line) ++ rest
      = Tag.meant δ line ⟨.block, trim, .word "if".toList :: g.conditionChunks⟩ ++
          (g.actionTag.meant δ line ++ (endTokens δ line ++ rest)) := by
    simp [Guard.tags, endTokens]
  have hend : Stops (⟨line, TagKind.endToken .block, TagKind.endMark δ .block⟩ ::
      (g.actionTag.meant δ line ++ (endTokens δ line ++ rest))) := stops_endToken line _ .block _
  have hexpr : readExpr (g.conditionChunks.map (Chunk.token line) ++ _) = _ :=
    readExpr_condition hg.notReserved hend
  have hkind : ∀ tokens, expectKind .blockEnd (⟨line, TagKind.endToken .block,
      TagKind.endMark δ .block⟩ :: tokens) = some tokens := fun _ => rfl
  have hif : (Chunk.token line (.word "if".toList)) = wordToken line "if" := rfl
  have hopen : ∀ t tokens, startsEnd (t :: wordToken line "if" :: tokens) = false := by
    intro t tokens
    rw [startsEnd, show startsWith .name "endif" (wordToken line "if" :: tokens) = false from rfl,
      Bool.and_false]
  have hset : ∀ tokens, startsWith .name "set" (wordToken line "if" :: tokens) = false :=
    fun _ => rfl
  have hexpect : ∀ tokens, expect .name "if" (wordToken line "if" :: tokens) = some tokens :=
    fun _ => rfl
  -- behind the action the end of the part is left
  have hbegin : endTokens δ line ++ rest = ⟨line, .blockBegin, δ.blockStart ++ signText false⟩ ::
      wordToken line "endif" :: ⟨line, .blockEnd, δ.blockEnd⟩ :: rest := rfl
  rw [hcut, meant_append, List.map_cons, hif]
  simp only [List.cons_append, readNodes, TagKind.startToken, hopen, Bool.false_eq_true, if_false,
    hset, hexpect, Option.bind_eq_bind, Option.bind_some, hexpr, hkind, readNodes_action hg]
  rw [hbegin]
  change (readNodes (fuel + 2) rest).bind _ = _
  rw [hrest]
  rfl

end guards

end ViewContract.Template
