/-
ViewContract.Proofs.Template.SelfContained — texts that are read alike wherever they stand.

A change to one part of a template can change how the other parts are read: a comment that is
opened hides what follows, and two halves of a mark become a mark when what stood between them
goes. `SelfContained` is the property of a part that rules this out. Wherever it stands among
text, the scan is in text again behind it, and whether raw code is found in it is settled.

  §1 tokens among which raw code is found or not, whatever follows them.
  §2 places in text, and self-contained texts. Put together such texts are self-contained
     (`SelfContained.append`), and the search for raw code goes over them part by part.
  §3 texts that are self-contained: plain text, and every text with a passage of its own.

Behind a tag with a minus at its end the blanks of the next part still belong to the tag. A
place in text therefore also says how many characters are covered, which are blanks.
-/
import ViewContract.Proofs.Template.Passage
import ViewContract.Template.RawCode

namespace ViewContract.Template

open ViewContract.Text

/-! ## 1. Raw code among tokens -/

/-- Among some tokens raw code is found, or not, whatever tokens follow. -/
def Decided (runs : Bool) (tokens : List Token) : Prop :=
  ∀ later, (firstDo (tokens ++ later)).isSome = (runs || (firstDo later).isSome)

theorem decided_nil : Decided false [] :=
  fun _ => rfl

theorem Decided.append {runs runs' : Bool} {xs ys : List Token} (hx : Decided runs xs)
    (hy : Decided runs' ys) : Decided (runs || runs') (xs ++ ys) := by
  intro later
  rw [List.append_assoc, hx, hy, Bool.or_assoc]

/-- Where no statement begins there is no raw code. -/
theorem decided_of_plain {tokens : List Token} (h : ∀ t ∈ tokens, beginsStatement t = false) :
    Decided false tokens := by
  intro later
  induction tokens with
  | nil => rfl
  | cons t tokens ih =>
    have ht := h t List.mem_cons_self
    have hrest := ih fun u hu => h u (List.mem_cons_of_mem t hu)
    rw [firstDo] at hrest
    rw [List.cons_append, firstDo, firstDoFrom]
    split
    · exact hrest
    · rw [Bool.false_and, if_neg Bool.false_ne_true, ht]
      exact hrest

/-- A statement that begins with another token than `do`, after a blank. -/
theorem decided_statement {start blank first : Token} {tokens : List Token}
    (hstart : start.kind ≠ .blank) (hblank : blank.kind = .blank) (hkind : first.kind ≠ .blank)
    (hdo : isDo first = false) (hfirst : beginsStatement first = false)
    (h : ∀ t ∈ tokens, beginsStatement t = false) :
    Decided false (start :: blank :: first :: tokens) := by
  intro later
  have hrest := decided_of_plain h later
  rw [firstDo] at hrest
  rw [List.cons_append, firstDo, firstDoFrom, if_neg hstart, Bool.false_and,
    if_neg Bool.false_ne_true, List.cons_append, firstDoFrom, if_pos hblank, List.cons_append,
    firstDoFrom, if_neg hkind, hdo, Bool.and_false, if_neg Bool.false_ne_true, hfirst]
  exact hrest

/-! ## 2. Self-contained texts -/

/-- A place in text: what stands before it, the line of the next token, the position, how many
characters the last token still covers, and the text that is read. -/
structure TextPlace where
  before : Option Char
  line : Nat
  position : Nat
  covered : Nat
  read : Text

/-- The scan of a template from a place on. -/
def TextPlace.scan (env : Environment) (p : TextPlace) (source : Text) : Scan :=
  scanFrom env p.before p.line p.position p.covered (.text p.read) (prepare source)

/-- Only blanks are covered. -/
def TextPlace.Fits (p : TextPlace) (source : Text) : Prop :=
  p.covered ≤ blankRun (prepare source)

/-- The start of a template. -/
def TextPlace.start : TextPlace :=
  ⟨none, 1, 0, 0, []⟩

/-- A text with or without raw code that is read alike wherever it stands: the scan gets from
every place in text to a place in text behind it. -/
def SelfContained (env : Environment) (runs : Bool) (t : Text) : Prop :=
  ∀ (rest : Text) (p : TextPlace), p.Fits (t ++ rest) →
    ∃ (tokens : List Token) (p' : TextPlace), p'.Fits rest ∧
      p.scan env (t ++ rest) = (p'.scan env rest).after tokens ∧
      Decided runs (tokens.filter isKept)

section contained

variable {env : Environment} {runs runs' : Bool} {t u : Text}

theorem selfContained_nil : SelfContained env false [] :=
  fun _ p hp => ⟨[], p, hp, rfl, decided_nil⟩

theorem SelfContained.append (ht : SelfContained env runs t) (hu : SelfContained env runs' u) :
    SelfContained env (runs || runs') (t ++ u) := by
  intro rest p hp
  rw [List.append_assoc] at hp ⊢
  obtain ⟨xs, p', hp', hscan, hxs⟩ := ht (u ++ rest) p hp
  obtain ⟨ys, p'', hp'', hscan', hys⟩ := hu rest p' hp'
  refine ⟨xs ++ ys, p'', hp'', ?_, ?_⟩
  · rw [hscan, hscan', after_after]
  · rw [List.filter_append]
    exact hxs.append hys

/-- A self-contained template has no fault, and raw code is found in it as was settled. -/
theorem SelfContained.findRawCode (h : SelfContained env runs t) :
    findRawCode env t = .ok none ↔ runs = false := by
  have hfits : TextPlace.start.Fits (t ++ []) := Nat.zero_le _
  obtain ⟨tokens, p, hp, hscan, htokens⟩ := h [] .start hfits
  have hcovered : p.covered = 0 := Nat.le_zero.mp hp
  have hend : p.scan env [] = ({} : Scan).after [⟨p.line, .data, p.read.reverse⟩] := by
    rw [TextPlace.scan, hcovered]
    rfl
  have hscan' : scan env t
      = (({} : Scan).after [⟨p.line, .data, p.read.reverse⟩]).after tokens := by
    rw [← hend, ← hscan, List.append_nil]
    rfl
  have hdata : ∀ d : Token, d.kind = .data → (firstDo ([d].filter isKept)).isSome = false := by
    intro d hd
    have hplain : ∀ t ∈ [d].filter isKept, beginsStatement t = false := by
      intro t ht
      rw [List.mem_singleton.mp ((List.mem_filter.mp ht).1), beginsStatement, hd]
      rfl
    have := decided_of_plain hplain []
    rwa [List.append_nil] at this
  have hfound : (firstDo (scan env t).tokens).isSome = runs := by
    rw [hscan', after_eq, after_eq, List.append_nil, htokens, hdata _ rfl, Bool.or_false]
  have hfault : (scan env t).fault = none := by
    rw [hscan']
    rfl
  rw [Template.findRawCode, hfault]
  rw [← hfound]
  cases firstDo (scan env t).tokens <;> simp

end contained

/-! ## 3. Texts that are self-contained -/

section instances

variable {env : Environment} {runs : Bool} {t : Text}

/-- A text that has a passage from every place in text to such a place. It must begin so that
it is not covered, and hold nothing that is changed before the scan. -/
theorem selfContained_of_passes (hreturn : '\r' ∉ t) (hlast : t.getLast? ≠ some '\n')
    (hhead : ∃ c u, t = c :: u ∧ isBlank c = false)
    (hpasses : ∀ before rest line read, ∃ tokens line' read',
      Passes env before rest line (.text read) t tokens line' (.text read') ∧
        Decided runs (tokens.filter isKept)) : SelfContained env runs t := by
  intro rest p hp
  obtain ⟨c, u, ht, hc⟩ := hhead
  rw [TextPlace.Fits, prepare_append hreturn hlast] at hp
  have hcovered : p.covered = 0 := by
    rw [ht, List.cons_append, blankRun, List.takeWhile_cons_of_neg (by rw [hc]; nofun)] at hp
    exact Nat.le_zero.mp hp
  obtain ⟨tokens, line', read', hpass, htokens⟩ :=
    hpasses p.before (prepare rest) p.line p.read
  refine ⟨tokens, ⟨t.getLast?.or p.before, line', p.position + t.length, 0, read'⟩,
    Nat.zero_le _, ?_, htokens⟩
  rw [TextPlace.scan, prepare_append hreturn hlast, hcovered]
  exact hpass p.position

/-- A character at which nothing opens. -/
theorem selfContained_char {c : Char}
    (h : ∀ before rest, opening? env before ((if c = '\r' then '\n' else c) :: rest) = none) :
    SelfContained env false [c] := by
  intro rest p hp
  rw [List.singleton_append] at hp ⊢
  -- what is prepared of the character: nothing, or one character
  by_cases hpair : c = '\r' ∧ rest.head? = some '\n'
  · obtain ⟨rfl, hrest⟩ := hpair
    obtain ⟨u, rfl⟩ : ∃ u, rest = '\n' :: u := by
      cases rest with
      | nil => exact nomatch hrest
      | cons d u => exact ⟨u, by rw [Option.some.inj hrest]⟩
    exact ⟨[], p, hp, rfl, decided_nil⟩
  · have hreturn : c = '\r' → rest.head? ≠ some '\n' := fun hc hrest => hpair ⟨hc, hrest⟩
    generalize hd : (if c = '\r' then '\n' else c) = d at h
    by_cases hend : rest = [] ∧ d = '\n'
    · obtain ⟨rfl, rfl⟩ := hend
      have hprepare : prepare [c] = [] := by
        rw [prepare, unifyLineFeeds_cons hreturn, hd]
        rfl
      refine ⟨[], p, ?_, ?_, decided_nil⟩
      · rwa [TextPlace.Fits, hprepare] at hp
      · rw [TextPlace.scan, hprepare]
        rfl
    · have hprepare : prepare (c :: rest) = d :: prepare rest := by
        rw [← hd]
        exact prepare_cons hreturn fun hnil heq => hend ⟨hnil, hd ▸ heq⟩
      rw [TextPlace.Fits, hprepare] at hp
      cases hcovered : p.covered with
      | zero =>
        refine ⟨[], ⟨some d, p.line, p.position + 1, 0, d :: p.read⟩, Nat.zero_le _, ?_,
          decided_nil⟩
        have hpass : Passes env p.before (prepare rest) p.line (.text p.read) [d] [] p.line
            (.text (d :: p.read)) := passes_text (h p.before _)
        rw [TextPlace.scan, hprepare, hcovered]
        exact hpass p.position
      | succ covered =>
        refine ⟨[], ⟨some d, p.line, p.position + 1, covered, p.read⟩, ?_, ?_, decided_nil⟩
        · rw [hcovered, blankRun] at hp
          by_cases hblank : isBlank d = true
          · rw [List.takeWhile_cons_of_pos hblank, List.length_cons] at hp
            exact Nat.le_of_succ_le_succ hp
          · rw [List.takeWhile_cons_of_neg hblank] at hp
            exact absurd hp (Nat.not_succ_le_zero covered)
        · rw [TextPlace.scan, hprepare, hcovered]
          rfl

/-- Plain text: at none of its characters anything opens. -/
theorem selfContained_plain
    (h : ∀ c ∈ t, ∀ before rest,
      opening? env before ((if c = '\r' then '\n' else c) :: rest) = none) :
    SelfContained env false t := by
  induction t with
  | nil => exact selfContained_nil
  | cons c t ih =>
    have hchar : SelfContained env false [c] := selfContained_char (h c List.mem_cons_self)
    exact hchar.append (ih fun d hd => h d (List.mem_cons_of_mem c hd))

end instances

end ViewContract.Template
