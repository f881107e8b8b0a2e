/-
ViewContract.Proofs.Template.RawCode — where raw code is found.

The search for raw code goes over the tokens once and carries one bit: whether a statement has
just begun. What it answers can be said without the bit. A `do` runs code if the token before it,
blanks apart, begins a statement (`RunsCode`), and the search answers the line of the first that
does:

  §1 the bit behind some tokens says how they end, blanks apart (`openedAfter_iff`).
  §2 the search over a row of tokens is the search over its parts, one after the other
     (`firstDoFrom_append`).
  §3 the first `do` that runs code (`raw_code_found`).
-/
import ViewContract.Template.RawCode

namespace ViewContract.Template

open ViewContract.Text

/-! ## 1. How tokens end -/

/-- Whether a statement has just begun behind a token, where `opened` says whether one had before
it. -/
def openedBy (opened : Bool) (t : Token) : Bool :=
  if t.kind = .blank then opened else beginsStatement t

/-- Whether a statement has just begun behind some tokens. -/
def openedAfter (opened : Bool) (tokens : List Token) : Bool :=
  tokens.foldl openedBy opened

@[simp] theorem openedAfter_nil (opened : Bool) : openedAfter opened [] = opened := rfl

@[simp] theorem openedAfter_cons (opened : Bool) (t : Token) (tokens : List Token) :
    openedAfter opened (t :: tokens) = openedAfter (openedBy opened t) tokens := rfl

/-- Tokens that end with one that begins a statement, blanks behind it apart. -/
def EndsOpened (tokens : List Token) : Prop :=
  ∃ earlier start blanks, tokens = earlier ++ start :: blanks ∧ beginsStatement start = true ∧
    ∀ b ∈ blanks, b.kind = .blank

theorem not_endsOpened_nil : ¬ EndsOpened [] := by
  rintro ⟨earlier, start, blanks, hcut, -⟩
  simp at hcut

theorem endsOpened_cons (t : Token) (tokens : List Token) :
    EndsOpened (t :: tokens) ↔
      EndsOpened tokens ∨ beginsStatement t = true ∧ ∀ b ∈ tokens, b.kind = .blank := by
  constructor
  · rintro ⟨earlier, start, blanks, hcut, hstart, hblanks⟩
    rcases List.cons_eq_append_iff.mp hcut with ⟨-, hrest⟩ | ⟨earlier', -, hrest⟩
    · obtain ⟨rfl, rfl⟩ := List.cons.inj hrest
      exact .inr ⟨hstart, hblanks⟩
    · exact .inl ⟨earlier', start, blanks, hrest, hstart, hblanks⟩
  · rintro (⟨earlier, start, blanks, rfl, hstart, hblanks⟩ | ⟨hstart, hblanks⟩)
    · exact ⟨t :: earlier, start, blanks, rfl, hstart, hblanks⟩
    · exact ⟨[], t, tokens, rfl, hstart, hblanks⟩

/-- The bit says how the tokens end; behind blanks alone it is what it was before them. -/
theorem openedAfter_iff (opened : Bool) (tokens : List Token) :
    openedAfter opened tokens = true ↔
      EndsOpened tokens ∨ opened = true ∧ ∀ b ∈ tokens, b.kind = .blank := by
  induction tokens generalizing opened with
  | nil => simp [not_endsOpened_nil]
  | cons t tokens ih =>
    rw [openedAfter_cons, ih, endsOpened_cons, or_assoc]
    refine or_congr Iff.rfl ?_
    unfold openedBy
    by_cases hblank : t.kind = .blank
    · simp [hblank, beginsStatement]
    · simp [hblank]

/-! ## 2. The search -/

theorem firstDoFrom_cons (opened : Bool) (t : Token) (tokens : List Token) :
    firstDoFrom opened (t :: tokens) =
      if opened = true ∧ isDo t = true then some t.line
      else firstDoFrom (openedBy opened t) tokens := by
  unfold openedBy
  by_cases hblank : t.kind = .blank
  · simp [firstDoFrom, isDo, hblank]
  · simp [firstDoFrom, hblank]

/-- The search goes on behind some tokens if nothing is found in them. -/
theorem firstDoFrom_append (opened : Bool) (before rest : List Token) :
    firstDoFrom opened (before ++ rest) =
      (firstDoFrom opened before).or (firstDoFrom (openedAfter opened before) rest) := by
  induction before generalizing opened with
  | nil => rfl
  | cons t before ih =>
    rw [List.cons_append, firstDoFrom_cons, firstDoFrom_cons, openedAfter_cons]
    split
    · rfl
    · exact ih (openedBy opened t)

/-- A line that is found is that of a `do` where a statement has just begun, and nothing is found
before it. -/
theorem exists_cut_of_firstDoFrom {opened : Bool} {tokens : List Token} {line : Nat}
    (h : firstDoFrom opened tokens = some line) :
    ∃ before d after, tokens = before ++ d :: after ∧ firstDoFrom opened before = none ∧
      openedAfter opened before = true ∧ isDo d = true ∧ d.line = line := by
  induction tokens generalizing opened with
  | nil => cases h
  | cons t tokens ih =>
    rw [firstDoFrom_cons] at h
    split at h
    · rename_i hdo
      exact ⟨[], t, tokens, rfl, rfl, hdo.1, hdo.2, Option.some.inj h⟩
    · rename_i hdo
      obtain ⟨before, d, after, rfl, hbefore, hopened, hd, hline⟩ := ih h
      refine ⟨t :: before, d, after, rfl, ?_, hopened, hd, hline⟩
      rw [firstDoFrom_cons, if_neg hdo]
      exact hbefore

/-! ## 3. Raw code -/

/-- A token that runs code behind the tokens before it: a `do` that begins a statement. -/
structure RunsCode (before : List Token) (d : Token) : Prop where
  word : isDo d = true
  opened : EndsOpened before

/-- Some token runs code. -/
def HoldsCode (tokens : List Token) : Prop :=
  ∃ before d after, tokens = before ++ d :: after ∧ RunsCode before d

/-- The first token that runs code is on a line. -/
def FirstRunsOn (tokens : List Token) (line : Nat) : Prop :=
  ∃ before d after, tokens = before ++ d :: after ∧ RunsCode before d ∧ d.line = line ∧
    ∀ before' d' after', tokens = before' ++ d' :: after' → RunsCode before' d' →
      before.length ≤ before'.length

theorem runsCode_iff {before : List Token} {d : Token} :
    RunsCode before d ↔ openedAfter false before = true ∧ isDo d = true := by
  rw [openedAfter_iff]
  constructor
  · intro h
    exact ⟨.inl h.opened, h.word⟩
  · rintro ⟨hopened | ⟨hfalse, -⟩, hdo⟩
    · exact ⟨hdo, hopened⟩
    · cases hfalse

theorem firstDo_append (before : List Token) (d : Token) (after : List Token) :
    firstDo (before ++ d :: after) =
      (firstDo before).or (firstDoFrom (openedAfter false before) (d :: after)) :=
  firstDoFrom_append false before (d :: after)

/-- Nothing is found exactly if no token runs code. -/
theorem firstDo_eq_none_iff (tokens : List Token) : firstDo tokens = none ↔ ¬ HoldsCode tokens := by
  constructor
  · rintro h ⟨before, d, after, rfl, hcode⟩
    obtain ⟨-, hrest⟩ := Option.or_eq_none_iff.mp ((firstDo_append before d after).symm.trans h)
    rw [firstDoFrom_cons, if_pos (runsCode_iff.mp hcode)] at hrest
    cases hrest
  · intro h
    cases hfirst : firstDo tokens with
    | none => rfl
    | some line =>
      obtain ⟨before, d, after, hcut, -, hopened, hdo, -⟩ := exists_cut_of_firstDoFrom hfirst
      exact absurd ⟨before, d, after, hcut, runsCode_iff.mpr ⟨hopened, hdo⟩⟩ h

/-- What is found is the line of the first token that runs code. -/
theorem firstDo_eq_some_iff (tokens : List Token) (line : Nat) :
    firstDo tokens = some line ↔ FirstRunsOn tokens line := by
  constructor
  · intro h
    obtain ⟨before, d, after, rfl, hbefore, hopened, hdo, hline⟩ := exists_cut_of_firstDoFrom h
    refine ⟨before, d, after, rfl, runsCode_iff.mpr ⟨hopened, hdo⟩, hline, ?_⟩
    intro before' d' after' hcut hcode
    refine Nat.le_of_not_lt fun hlt => ?_
    -- an earlier one stands among the tokens before, where nothing is found
    obtain ⟨between, rfl⟩ : ∃ between, before = before' ++ d' :: between := by
      rcases List.append_eq_append_iff.mp hcut with ⟨more, rfl, -⟩ | ⟨more, rfl, hmore⟩
      · rw [List.length_append] at hlt
        omega
      · cases more with
        | nil => simp at hlt
        | cons c more =>
          obtain ⟨rfl, -⟩ := List.cons.inj hmore
          exact ⟨more, rfl⟩
    exact (firstDo_eq_none_iff _).mp hbefore ⟨before', d', between, rfl, hcode⟩
  · rintro ⟨before, d, after, rfl, hcode, rfl, hfirst⟩
    have hbefore : firstDo before = none := by
      rw [firstDo_eq_none_iff]
      rintro ⟨before', d', after', rfl, hcode'⟩
      have hle := hfirst before' d' (after' ++ d :: after) (by simp) hcode'
      rw [List.length_append, List.length_cons] at hle
      omega
    rw [firstDo_append, hbefore, Option.none_or, firstDoFrom_cons, if_pos (runsCode_iff.mp hcode)]

/-- A token that runs no code may say anything but `do`. -/
theorem firstDo_of_not_runsCode {before : List Token} {d : Token} (h : ¬ RunsCode before d)
    (after : List Token) {word : Text} (hword : word ≠ "do".toList) :
    firstDo (before ++ { d with text := word } :: after) = firstDo (before ++ d :: after) := by
  have hother : isDo { d with text := word } = false :=
    Bool.and_eq_false_imp.mpr fun _ => decide_eq_false hword
  rw [firstDo_append, firstDo_append, firstDoFrom_cons, firstDoFrom_cons,
    if_neg (mt runsCode_iff.mpr h), if_neg (by simp [hother])]
  rfl

/-- **Raw code is found where it first runs.** Among any tokens the search answers a line exactly
if a `do` begins a statement, with only blanks between the two, and then the line of the first
`do` that does. What else says `do`, a name further on in a statement, an output, a comment or
raw data, does not matter: it could as well say something else. The search of a template goes over
its tokens so, and meets a fault only if no raw code comes before it. -/
theorem raw_code_found :
    (∀ tokens, (∃ line, firstDo tokens = some line) ↔ HoldsCode tokens) ∧
    (∀ tokens line, firstDo tokens = some line ↔ FirstRunsOn tokens line) ∧
    (∀ before d after word, ¬ RunsCode before d → word ≠ "do".toList →
      firstDo (before ++ { d with text := word } :: after) = firstDo (before ++ d :: after)) ∧
    ∀ env source,
      (∀ line, findRawCode env source = .ok (some line) ↔
        FirstRunsOn (scan env source).tokens line) ∧
      (findRawCode env source = .ok none ↔
        ¬ HoldsCode (scan env source).tokens ∧ (scan env source).fault = none) ∧
      ∀ fault, findRawCode env source = .error fault ↔
        ¬ HoldsCode (scan env source).tokens ∧ (scan env source).fault = some fault := by
  refine ⟨fun tokens => ?_, firstDo_eq_some_iff, fun before d after word h hword =>
    firstDo_of_not_runsCode h after hword, fun env source => ?_⟩
  · rw [← Option.isSome_iff_exists, Option.isSome_iff_ne_none, ne_eq, firstDo_eq_none_iff,
      Classical.not_not]
  · simp only [← firstDo_eq_some_iff, ← firstDo_eq_none_iff, findRawCode]
    cases firstDo (scan env source).tokens with
    | some line => simp
    | none => cases (scan env source).fault <;> simp

/-- A name in an output, a name further on in a statement, and then raw code. -/
example : firstDo (scan {} "\x7b\x7b do \x7d\x7d\n\x7b% set do = 1 %\x7d\n\x7b%- do f() %\x7d".toList).tokens
    = some 3 := by decide +kernel

end ViewContract.Template
