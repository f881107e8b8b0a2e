/-
ViewContract.Proofs.Docblock.Nesting — where a type ends.

The scan of a type keeps the closing brackets that are still due, and ends at the first blank
where none is. What it finds can be said by the brackets alone: a type is a text whose brackets
are nested and whose blanks all stand in brackets (`LeadingType`). It also says why no type can
be found: a closing bracket is not the one that is due, or one is due at the end.

  §1 nested texts, and texts with brackets left open.
  §2 the brackets that are due behind a text (`dueAfter`), which are those left open in it.
  §3 places inside brackets.
  §4 the scan by the brackets that are due.
  §5 the scan by the nesting (`type_scanned`).
-/
import ViewContract.Docblock.TypeExpr
import ViewContract.Proofs.Text.Blank
import Mathlib.Data.List.Induction

namespace ViewContract

open Text

namespace Docblock

/-! ## 1. Nested texts -/

/-- A text whose brackets are nested: each one that is opened is closed by one of its own kind,
and none else is closed. -/
inductive Nested : Text → Prop where
  | nil : Nested []
  | plain {c : Char} {t : Text} (hopener : closerOf? c = none) (hcloser : isCloser c = false)
      (ht : Nested t) : Nested (c :: t)
  | pair {opener closer : Char} {inner t : Text} (hpair : closerOf? opener = some closer)
      (hinner : Nested inner) (ht : Nested t) : Nested (opener :: (inner ++ closer :: t))

/-- A text whose brackets are nested as far as they are closed, where `due` would close the
others, the last opened first. -/
inductive LeavesOpen : List Char → Text → Prop where
  | nested {t : Text} (ht : Nested t) : LeavesOpen [] t
  | opener {due : List Char} {before t : Text} {opener closer : Char}
      (hbefore : LeavesOpen due before) (hpair : closerOf? opener = some closer) (ht : Nested t) :
      LeavesOpen (closer :: due) (before ++ opener :: t)

theorem Nested.append {s t : Text} (hs : Nested s) (ht : Nested t) : Nested (s ++ t) := by
  induction hs with
  | nil => exact ht
  | plain hopener hcloser _ ih => exact .plain hopener hcloser ih
  | pair hpair hinner _ _ ih =>
    rw [List.cons_append, List.append_assoc, List.cons_append]
    exact .pair hpair hinner ih

theorem nested_of_forall {t : Text} (h : ∀ c ∈ t, closerOf? c = none ∧ isCloser c = false) :
    Nested t := by
  induction t with
  | nil => exact .nil
  | cons c t ih =>
    obtain ⟨hopener, hcloser⟩ := h c List.mem_cons_self
    exact .plain hopener hcloser (ih fun d hd => h d (List.mem_cons_of_mem c hd))

theorem LeavesOpen.append {due : List Char} {s t : Text} (hs : LeavesOpen due s) (ht : Nested t) :
    LeavesOpen due (s ++ t) := by
  cases hs with
  | nested hs => exact .nested (hs.append ht)
  | opener hbefore hpair hs =>
    rw [List.append_assoc, List.cons_append]
    exact .opener hbefore hpair (hs.append ht)

/-- The bracket that is due first closes the one that was opened last. -/
theorem LeavesOpen.close {due : List Char} {closer : Char} {t : Text}
    (h : LeavesOpen (closer :: due) t) : LeavesOpen due (t ++ [closer]) := by
  cases h with
  | opener hbefore hpair ht =>
    rw [List.append_assoc, List.cons_append]
    exact hbefore.append (.pair hpair ht .nil)

/-! ## 2. Brackets that are due -/

/-- The closing brackets that are due behind a character, where `due` are due before it; none if
the character closes what is not due. -/
def dueStep (due : List Char) (c : Char) : Option (List Char) :=
  match closerOf? c with
  | some closer => some (closer :: due)
  | none =>
    if isCloser c then
      match due with
      | closer :: due => if closer = c then some due else none
      | [] => none
    else some due

/-- The closing brackets that are due behind a text. -/
def dueAfter (due : List Char) (t : Text) : Option (List Char) :=
  t.foldlM dueStep due

@[simp] theorem dueAfter_nil (due : List Char) : dueAfter due [] = some due := rfl

@[simp] theorem dueAfter_cons (due : List Char) (c : Char) (t : Text) :
    dueAfter due (c :: t) = (dueStep due c).bind (dueAfter · t) := rfl

theorem dueAfter_append (due : List Char) (s t : Text) :
    dueAfter due (s ++ t) = (dueAfter due s).bind (dueAfter · t) :=
  List.foldlM_append ..

theorem isCloser_of_closerOf? {opener closer : Char} (h : closerOf? opener = some closer) :
    isCloser closer = true := by
  unfold closerOf? at h
  split at h
  · exact Option.some.inj h ▸ rfl
  · split at h
    · exact Option.some.inj h ▸ rfl
    · split at h
      · exact Option.some.inj h ▸ rfl
      · split at h
        · exact Option.some.inj h ▸ rfl
        · cases h

/-- No bracket both opens and closes. -/
theorem closerOf?_of_isCloser {c : Char} (h : isCloser c = true) : closerOf? c = none := by
  simp only [isCloser, Bool.or_eq_true, decide_eq_true_eq, or_assoc] at h
  rcases h with rfl | rfl | rfl | rfl <;> rfl

theorem dueStep_opener {opener closer : Char} (h : closerOf? opener = some closer)
    (due : List Char) : dueStep due opener = some (closer :: due) := by
  simp [dueStep, h]

theorem dueStep_closer {c : Char} (h : isCloser c = true) (due : List Char) :
    dueStep (c :: due) c = some due := by
  simp [dueStep, h, closerOf?_of_isCloser h]

theorem dueStep_plain {c : Char} (hopener : closerOf? c = none) (hcloser : isCloser c = false)
    (due : List Char) : dueStep due c = some due := by
  simp [dueStep, hopener, hcloser]

/-- All that a character can do: it opens a bracket, closes the one that is due, or is none. -/
theorem dueStep_cases {due next : List Char} {c : Char} (h : dueStep due c = some next) :
    (∃ closer, closerOf? c = some closer ∧ next = closer :: due) ∨
      (isCloser c = true ∧ due = c :: next) ∨
      (closerOf? c = none ∧ isCloser c = false ∧ next = due) := by
  unfold dueStep at h
  split at h
  · rename_i closer hpair
    exact .inl ⟨closer, hpair, (Option.some.inj h).symm⟩
  · rename_i hopener
    split at h
    · rename_i hcloser
      split at h
      · split at h
        · rename_i hsame
          obtain rfl := Option.some.inj h
          exact .inr (.inl ⟨hcloser, hsame ▸ rfl⟩)
        · cases h
      · cases h
    · rename_i hcloser
      exact .inr (.inr ⟨hopener, by simpa using hcloser, (Option.some.inj h).symm⟩)

theorem dueStep_eq_none_iff (due : List Char) (c : Char) :
    dueStep due c = none ↔ isCloser c = true ∧ due.head? ≠ some c := by
  unfold dueStep
  cases hopener : closerOf? c with
  | some closer =>
    have hcloser : isCloser c ≠ true := by
      intro h
      rw [closerOf?_of_isCloser h] at hopener
      cases hopener
    simp [hcloser]
  | none =>
    by_cases hcloser : isCloser c = true
    · cases due <;> simp [hcloser]
    · simp [hcloser]

/-- Behind a nested text is due what was due before it. -/
theorem Nested.dueAfter {t : Text} (h : Nested t) (due : List Char) :
    dueAfter due t = some due := by
  induction h generalizing due with
  | nil => rfl
  | plain hopener hcloser _ ih => simp [dueStep_plain hopener hcloser, ih]
  | pair hpair _ _ ihinner ih =>
    simp [dueAfter_append, dueStep_opener hpair, dueStep_closer (isCloser_of_closerOf? hpair),
      ihinner, ih]

/-- What is due behind a text is what it leaves open. -/
theorem dueAfter_eq_some_iff (due : List Char) (t : Text) :
    dueAfter [] t = some due ↔ LeavesOpen due t := by
  constructor
  · intro h
    induction t using List.reverseRecOn generalizing due with
    | nil =>
      obtain rfl := Option.some.inj h
      exact .nested .nil
    | append_singleton t c ih =>
      rw [dueAfter_append] at h
      obtain ⟨before, hbefore, hstep⟩ := Option.bind_eq_some_iff.mp h
      have hopen := ih before hbefore
      rcases dueStep_cases (by simpa using hstep) with
        ⟨closer, hpair, rfl⟩ | ⟨-, rfl⟩ | ⟨hopener, hcloser, rfl⟩
      · exact .opener hopen hpair .nil
      · exact hopen.close
      · exact hopen.append (.plain hopener hcloser .nil)
  · intro h
    induction h with
    | nested ht => exact ht.dueAfter []
    | opener _ hpair ht ih => simp [dueAfter_append, dueStep_opener hpair, ih, ht.dueAfter]

theorem nested_iff (t : Text) : Nested t ↔ dueAfter [] t = some [] := by
  rw [dueAfter_eq_some_iff]
  constructor
  · exact .nested
  · intro h
    cases h with
    | nested ht => exact ht

/-! ## 3. Places inside brackets -/

/-- A place inside brackets: between one that is opened and the one that closes it. -/
def Enclosed (left right : Text) : Prop :=
  ∃ before opener inner inner' closer after, left = before ++ opener :: inner ∧
    right = inner' ++ closer :: after ∧ closerOf? opener = some closer ∧ Nested (inner ++ inner')

/-- What is due further out stays due. -/
theorem dueAfter_weaken {due due' : List Char} {t : Text} (h : dueAfter due t = some due')
    (outer : List Char) : dueAfter (due ++ outer) t = some (due' ++ outer) := by
  induction t generalizing due with
  | nil =>
    obtain rfl := Option.some.inj h
    rfl
  | cons c t ih =>
    obtain ⟨next, hstep, hlater⟩ := Option.bind_eq_some_iff.mp h
    have hstep' : dueStep (due ++ outer) c = some (next ++ outer) := by
      rcases dueStep_cases hstep with
        ⟨closer, hpair, rfl⟩ | ⟨hcloser, rfl⟩ | ⟨hopener, hcloser, rfl⟩
      · exact dueStep_opener hpair _
      · exact dueStep_closer hcloser _
      · exact dueStep_plain hopener hcloser _
    rw [dueAfter_cons, hstep']
    exact ih hlater

/-- What is due before a text and no more behind it is closed in it. -/
theorem exists_close {inner outer due : List Char} {closer : Char} {t : Text}
    (h : dueAfter (inner ++ closer :: outer) t = some due) (hdue : due.length ≤ outer.length) :
    ∃ before after, t = before ++ closer :: after ∧ dueAfter inner before = some [] := by
  induction t generalizing inner with
  | nil =>
    obtain rfl := Option.some.inj h
    simp at hdue
    omega
  | cons c t ih =>
    obtain ⟨next, hstep, hlater⟩ := Option.bind_eq_some_iff.mp h
    rcases dueStep_cases hstep with ⟨opened, hpair, rfl⟩ | ⟨hcloser, hcut⟩ | ⟨hopener, hcloser, rfl⟩
    · obtain ⟨before, after, rfl, hbefore⟩ := @ih (opened :: inner) hlater
      refine ⟨c :: before, after, rfl, ?_⟩
      rw [dueAfter_cons, dueStep_opener hpair]
      exact hbefore
    · cases inner with
      | nil =>
        obtain ⟨rfl, -⟩ := List.cons.inj hcut
        exact ⟨[], t, rfl, rfl⟩
      | cons d inner =>
        obtain ⟨rfl, rfl⟩ := List.cons.inj hcut
        obtain ⟨before, after, rfl, hbefore⟩ := ih hlater
        refine ⟨d :: before, after, rfl, ?_⟩
        rw [dueAfter_cons, dueStep_closer hcloser]
        exact hbefore
    · obtain ⟨before, after, rfl, hbefore⟩ := ih hlater
      refine ⟨c :: before, after, rfl, ?_⟩
      rw [dueAfter_cons, dueStep_plain hopener hcloser]
      exact hbefore

/-- In a nested text a place is inside brackets if the text in front of it is not nested. -/
theorem enclosed_iff {left right : Text} (h : Nested (left ++ right)) :
    Enclosed left right ↔ ¬ Nested left := by
  rw [nested_iff] at h ⊢
  rw [dueAfter_append] at h
  obtain ⟨due, hleft, hright⟩ := Option.bind_eq_some_iff.mp h
  constructor
  · rintro ⟨before, opener, inner, inner', closer, after, rfl, rfl, hpair, hinner⟩ hnone
    rw [nested_iff, dueAfter_append] at hinner
    obtain ⟨own, hown, -⟩ := Option.bind_eq_some_iff.mp hinner
    rw [dueAfter_append] at hnone
    obtain ⟨outer, -, hrest⟩ := Option.bind_eq_some_iff.mp hnone
    rw [dueAfter_cons, dueStep_opener hpair] at hrest
    have hsome := dueAfter_weaken hown (closer :: outer)
    rw [List.nil_append] at hsome
    rw [Option.bind_some, hsome] at hrest
    simp at hrest
  · intro hsome
    cases (dueAfter_eq_some_iff due left).mp hleft with
    | nested ht => exact absurd (ht.dueAfter []) hsome
    | @opener outer before inner opener closer hbefore hpair hinner =>
      obtain ⟨inner', after, rfl, hclosed⟩ :=
        @exists_close [] outer [] closer right hright (Nat.zero_le _)
      exact ⟨before, opener, inner, inner', closer, after, rfl, rfl, hpair,
        hinner.append ((nested_iff inner').mpr hclosed)⟩

/-! ## 4. The scan by the brackets that are due -/

/-- Each blank of a text stands where something is due. -/
def HeldFrom (due : List Char) (t : Text) : Prop :=
  ∀ left c right, t = left ++ c :: right → isBlank c = true → dueAfter due left ≠ some []

theorem heldFrom_nil (due : List Char) : HeldFrom due [] := by
  intro left c right hcut
  simp at hcut

theorem heldFrom_cons (due : List Char) (c : Char) (t : Text) :
    HeldFrom due (c :: t) ↔
      ¬ (isBlank c = true ∧ due = []) ∧ ∀ next, dueStep due c = some next → HeldFrom next t := by
  constructor
  · intro h
    constructor
    · rintro ⟨hblank, rfl⟩
      exact h [] c t rfl hblank rfl
    · rintro next hstep left d right rfl hblank
      have hlater := h (c :: left) d right rfl hblank
      rwa [dueAfter_cons, hstep] at hlater
  · rintro ⟨hc, hlater⟩ left d right hcut hblank
    cases left with
    | nil =>
      obtain ⟨rfl, -⟩ := List.cons.inj hcut
      exact fun hdue => hc ⟨hblank, Option.some.inj hdue⟩
    | cons e left =>
      obtain ⟨rfl, rfl⟩ := List.cons.inj hcut
      rw [dueAfter_cons]
      cases hstep : dueStep due c with
      | none => simp
      | some next => exact hlater next hstep left d right rfl hblank

section step

variable {due next : List Char} {c : Char} (hstep : dueStep due c = some next)

include hstep

theorem dueAfter_of_step (t : Text) : dueAfter due (c :: t) = dueAfter next t := by
  rw [dueAfter_cons, hstep]
  rfl

theorem heldFrom_of_step (hgo : ¬ (isBlank c = true ∧ due = [])) (t : Text) :
    HeldFrom due (c :: t) ↔ HeldFrom next t := by
  rw [heldFrom_cons, hstep]
  simp [hgo]

end step

theorem dueAfter_of_refused {due : List Char} {c : Char} (hstep : dueStep due c = none)
    (t : Text) : dueAfter due (c :: t) = none := by
  rw [dueAfter_cons, hstep]
  rfl

/-- A text in which something is due in front of every blank does not begin with a blank where
nothing is. -/
theorem not_heldFrom_of_end {due : List Char} {c : Char} (hend : isBlank c = true ∧ due = [])
    (t : Text) : ¬ HeldFrom due (c :: t) :=
  fun hheld => ((heldFrom_cons due c t).mp hheld).1 hend

theorem not_isCloser_of_isBlank {c : Char} (h : isBlank c = true) : isCloser c = false := by
  have hne : ∀ d, isBlank d = false → c ≠ d := fun d => ne_of_isBlank h
  simp [isCloser, hne '>' (by decide), hne '\x7d' (by decide), hne ')' (by decide),
    hne ']' (by decide)]

theorem closerOf?_of_isBlank {c : Char} (h : isBlank c = true) : closerOf? c = none := by
  have hne : ∀ d, isBlank d = false → c ≠ d := fun d => ne_of_isBlank h
  simp [closerOf?, hne '<' (by decide), hne '\x7b' (by decide), hne '(' (by decide),
    hne '[' (by decide)]

/-- The scan ends at a blank where nothing is due, and goes on with what is due behind any other
character. -/
theorem scanFrom_cons (line : Nat) (due : List Char) (c : Char) (t : Text) :
    scanFrom line due (c :: t) =
      if isBlank c = true ∧ due = [] then .ok ([], c :: t)
      else match dueStep due c with
        | some next => (fun s => (c :: s.1, s.2)) <$> scanFrom line next t
        | none => .error (.unbalancedBracket c line) := by
  rw [scanFrom.eq_def line due (c :: t)]
  by_cases hblank : isBlank c = true
  · have hcloser := not_isCloser_of_isBlank hblank
    have hopener := closerOf?_of_isBlank hblank
    rw [dueStep_plain hopener hcloser]
    cases due <;> simp [hblank, hcloser, hopener]
  · unfold dueStep
    cases hopener : closerOf? c with
    | some closer => cases due <;> simp [hblank, hopener]
    | none =>
      by_cases hcloser : isCloser c = true
      · cases due with
        | nil => simp [hcloser, hblank, hopener]
        | cons closer due => by_cases hsame : closer = c <;> simp [hcloser, hsame, hopener]
      · cases due <;> simp [hcloser, hblank, hopener]

theorem map_head_eq_ok_iff {c : Char} {x : Except GrammarFault (Text × Text)} {t r : Text} :
    (fun s => (c :: s.1, s.2)) <$> x = .ok (t, r) ↔ ∃ t', t = c :: t' ∧ x = .ok (t', r) := by
  cases x with
  | error e => simp [Functor.map, Except.map]
  | ok s =>
    constructor
    · intro h
      obtain ⟨rfl, rfl⟩ := Prod.mk.inj (Except.ok.inj h)
      exact ⟨s.1, rfl, rfl⟩
    · rintro ⟨t', rfl, h⟩
      obtain rfl := Except.ok.inj h
      rfl

theorem map_head_eq_error_iff {c : Char} {x : Except GrammarFault (Text × Text)}
    {fault : GrammarFault} :
    (fun s => (c :: s.1, s.2)) <$> x = .error fault ↔ x = .error fault := by
  cases x <;> simp [Functor.map, Except.map]

/-- What is found goes on over a character that does not end it. -/
theorem exists_cons_of_goes_on {due : List Char} {c : Char} {text t r : Text}
    (hgo : ¬ (isBlank c = true ∧ due = [])) (hcut : t ++ r = c :: text)
    (hdue : dueAfter due t = some []) (hblank : r.head?.all isBlank = true) :
    ∃ t', t = c :: t' ∧ t' ++ r = text := by
  cases t with
  | nil =>
    rw [List.nil_append] at hcut
    rw [hcut] at hblank
    exact absurd ⟨hblank, Option.some.inj hdue⟩ hgo
  | cons d t =>
    obtain ⟨rfl, hrest⟩ := List.cons.inj hcut
    exact ⟨t, rfl, hrest⟩

theorem scanFrom_nil_eq_ok_iff (line : Nat) (due : List Char) (t r : Text) :
    scanFrom line due [] = .ok (t, r) ↔ due = [] ∧ t = [] ∧ r = [] := by
  cases due <;> simp [scanFrom, eq_comm]

theorem scanFrom_nil_eq_error_iff (line : Nat) (due : List Char) (fault : GrammarFault) :
    scanFrom line due [] = .error fault ↔
      ∃ closer outer, due = closer :: outer ∧ fault = .unclosedBracket closer line := by
  cases due <;> simp [scanFrom, eq_comm]

/-- The scan finds the text up to the first blank where nothing is due. -/
theorem scanFrom_eq_ok_iff (line : Nat) (due : List Char) (text t r : Text) :
    scanFrom line due text = .ok (t, r) ↔
      t ++ r = text ∧ dueAfter due t = some [] ∧ HeldFrom due t ∧ r.head?.all isBlank = true := by
  induction text generalizing due t with
  | nil =>
    rw [scanFrom_nil_eq_ok_iff, List.append_eq_nil_iff]
    constructor
    · rintro ⟨rfl, rfl, rfl⟩
      exact ⟨⟨rfl, rfl⟩, rfl, heldFrom_nil [], rfl⟩
    · rintro ⟨⟨rfl, rfl⟩, hdue, -⟩
      exact ⟨Option.some.inj hdue, rfl, rfl⟩
  | cons c text ih =>
    rw [scanFrom_cons]
    split
    · rename_i hend
      constructor
      · intro h
        obtain ⟨rfl, rfl⟩ := Prod.mk.inj (Except.ok.inj h)
        exact ⟨rfl, by rw [hend.2]; rfl, heldFrom_nil due, hend.1⟩
      · rintro ⟨hcut, -, hheld, -⟩
        cases t with
        | nil => exact congrArg (fun r => Except.ok ([], r)) hcut.symm
        | cons d t =>
          obtain ⟨rfl, -⟩ := List.cons.inj hcut
          exact absurd hheld (not_heldFrom_of_end hend t)
    · rename_i hgo
      cases hstep : dueStep due c with
      | none =>
        refine iff_of_false (by simp) ?_
        rintro ⟨hcut, hdue, -, hblank⟩
        obtain ⟨t', rfl, -⟩ := exists_cons_of_goes_on hgo hcut hdue hblank
        rw [dueAfter_of_refused hstep] at hdue
        cases hdue
      | some next =>
        dsimp only
        rw [map_head_eq_ok_iff]
        constructor
        · rintro ⟨t', rfl, h⟩
          obtain ⟨hrest, h⟩ := (ih next t').mp h
          rw [dueAfter_of_step hstep, heldFrom_of_step hstep hgo]
          exact ⟨congrArg (c :: ·) hrest, h⟩
        · rintro ⟨hcut, hdue, hheld, hblank⟩
          obtain ⟨t', rfl, hrest⟩ := exists_cons_of_goes_on hgo hcut hdue hblank
          rw [dueAfter_of_step hstep] at hdue
          rw [heldFrom_of_step hstep hgo] at hheld
          exact ⟨t', rfl, (ih next t').mpr ⟨hrest, hdue, hheld, hblank⟩⟩

/-- A text with a bracket that closes what is not due there, where no blank in front of it ends the
scan. -/
def Unbalanced (due : List Char) (text : Text) (c : Char) : Prop :=
  ∃ before after inner, text = before ++ c :: after ∧ dueAfter due before = some inner ∧
    HeldFrom due before ∧ isCloser c = true ∧ inner.head? ≠ some c

theorem not_unbalanced_nil (due : List Char) (c : Char) : ¬ Unbalanced due [] c := by
  rintro ⟨before, after, inner, hcut, -⟩
  simp at hcut

theorem not_unbalanced_of_end {due : List Char} {c : Char} (hend : isBlank c = true ∧ due = [])
    (text : Text) (d : Char) : ¬ Unbalanced due (c :: text) d := by
  rintro ⟨before, after, inner, hcut, -, hheld, hcloser, -⟩
  rcases List.cons_eq_append_iff.mp hcut with ⟨rfl, hrest⟩ | ⟨before', rfl, -⟩
  · obtain ⟨rfl, -⟩ := List.cons.inj hrest
    rw [not_isCloser_of_isBlank hend.1] at hcloser
    cases hcloser
  · exact not_heldFrom_of_end hend before' hheld

theorem unbalanced_of_refused {due : List Char} {c : Char} (hstep : dueStep due c = none)
    (text : Text) (d : Char) : Unbalanced due (c :: text) d ↔ d = c := by
  constructor
  · rintro ⟨before, after, inner, hcut, hdue, -⟩
    rcases List.cons_eq_append_iff.mp hcut with ⟨rfl, hrest⟩ | ⟨before', rfl, -⟩
    · exact (List.cons.inj hrest).1
    · rw [dueAfter_of_refused hstep] at hdue
      cases hdue
  · rintro rfl
    obtain ⟨hcloser, hhead⟩ := (dueStep_eq_none_iff due d).mp hstep
    exact ⟨[], text, due, rfl, rfl, heldFrom_nil due, hcloser, hhead⟩

theorem unbalanced_of_step {due next : List Char} {c : Char} (hstep : dueStep due c = some next)
    (hgo : ¬ (isBlank c = true ∧ due = [])) (text : Text) (d : Char) :
    Unbalanced due (c :: text) d ↔ Unbalanced next text d := by
  constructor
  · rintro ⟨before, after, inner, hcut, hbefore, hheld, hcloser, hhead⟩
    rcases List.cons_eq_append_iff.mp hcut with ⟨rfl, hrest⟩ | ⟨before', rfl, hrest⟩
    · obtain ⟨rfl, -⟩ := List.cons.inj hrest
      obtain rfl := Option.some.inj hbefore
      rw [(dueStep_eq_none_iff due _).mpr ⟨hcloser, hhead⟩] at hstep
      cases hstep
    · rw [dueAfter_of_step hstep] at hbefore
      rw [heldFrom_of_step hstep hgo] at hheld
      exact ⟨before', after, inner, hrest, hbefore, hheld, hcloser, hhead⟩
  · rintro ⟨before, after, inner, rfl, hbefore, hheld, h⟩
    refine ⟨c :: before, after, inner, rfl, ?_, ?_, h⟩
    · rwa [dueAfter_of_step hstep]
    · rwa [heldFrom_of_step hstep hgo]

/-- The scan fails at a bracket that closes what is not due, and at the end if something is due,
unless it has ended before. -/
theorem scanFrom_eq_error_iff (line : Nat) (due : List Char) (text : Text) (fault : GrammarFault) :
    scanFrom line due text = .error fault ↔
      (∃ c, Unbalanced due text c ∧ fault = .unbalancedBracket c line) ∨
      ∃ closer outer, dueAfter due text = some (closer :: outer) ∧ HeldFrom due text ∧
        fault = .unclosedBracket closer line := by
  induction text generalizing due with
  | nil => simp [scanFrom_nil_eq_error_iff, not_unbalanced_nil, heldFrom_nil]
  | cons c text ih =>
    rw [scanFrom_cons]
    split
    · rename_i hend
      simp [not_unbalanced_of_end hend, not_heldFrom_of_end hend]
    · rename_i hgo
      cases hstep : dueStep due c with
      | none => simp [unbalanced_of_refused hstep, dueAfter_of_refused hstep, eq_comm]
      | some next =>
        simp only [map_head_eq_error_iff, unbalanced_of_step hstep hgo, dueAfter_of_step hstep,
          heldFrom_of_step hstep hgo]
        exact ih next

/-! ## 5. The scan by the nesting -/

/-- A text whose blanks all stand in brackets: what is in front of one leaves a bracket open. -/
def Held (t : Text) : Prop :=
  ∀ left c right, t = left ++ c :: right → isBlank c = true → ¬ Nested left

/-- A text that is cut behind the type that it begins with. -/
structure LeadingType (text type rest : Text) : Prop where
  cut : type ++ rest = text
  nested : Nested type
  enclosed : ∀ left c right, type = left ++ c :: right → isBlank c = true →
    Enclosed left (c :: right)
  ends : rest.head?.all isBlank = true

theorem heldFrom_iff (t : Text) : HeldFrom [] t ↔ Held t := by
  simp only [HeldFrom, Held, nested_iff, ne_eq]

theorem exists_unbalanced_iff {text : Text} {p : Char → Prop} :
    (∃ c, Unbalanced [] text c ∧ p c) ↔
      ∃ before c after due, text = before ++ c :: after ∧ LeavesOpen due before ∧ Held before ∧
        isCloser c = true ∧ due.head? ≠ some c ∧ p c := by
  simp only [Unbalanced, dueAfter_eq_some_iff, heldFrom_iff]
  constructor
  · rintro ⟨c, ⟨before, after, due, hcut, hopen, hheld, hcloser, hhead⟩, hp⟩
    exact ⟨before, c, after, due, hcut, hopen, hheld, hcloser, hhead, hp⟩
  · rintro ⟨before, c, after, due, hcut, hopen, hheld, hcloser, hhead, hp⟩
    exact ⟨c, ⟨before, after, due, hcut, hopen, hheld, hcloser, hhead⟩, hp⟩

theorem scanType_eq_ok_iff (line : Nat) (text type rest : Text) :
    scanType line text = .ok (type, rest) ↔ LeadingType text type rest := by
  rw [scanType, scanFrom_eq_ok_iff, ← nested_iff, heldFrom_iff]
  constructor
  · rintro ⟨hcut, hnested, hheld, hends⟩
    refine ⟨hcut, hnested, fun left c right htype hblank => ?_, hends⟩
    exact (enclosed_iff (htype ▸ hnested)).mpr (hheld left c right htype hblank)
  · rintro ⟨hcut, hnested, henclosed, hends⟩
    refine ⟨hcut, hnested, fun left c right htype hblank => ?_, hends⟩
    exact (enclosed_iff (htype ▸ hnested)).mp (henclosed left c right htype hblank)

/-- A type that is found is found so on every line. -/
theorem scanType_of_line {line : Nat} {text : Text} {split : Text × Text}
    (h : scanType line text = .ok split) (line' : Nat) : scanType line' text = .ok split :=
  (scanType_eq_ok_iff line' text split.1 split.2).mpr
    ((scanType_eq_ok_iff line text split.1 split.2).mp h)

/-- **A type ends at the first blank outside brackets.** The scan cuts a text exactly where what
stands before the cut is nested, each blank in it stands between a bracket that is opened and the
one that closes it, and a blank or nothing follows. It fails exactly if there is no such cut. Then
the brackets are to blame: one closes what is not the last opened before it, with no blank outside
brackets on the way there, or one is still open at the end. -/
theorem type_scanned (line : Nat) (text : Text) :
    (∀ type rest, scanType line text = .ok (type, rest) ↔ LeadingType text type rest) ∧
    ((∃ fault, scanType line text = .error fault) ↔ ¬ ∃ type rest, LeadingType text type rest) ∧
    ∀ fault, scanType line text = .error fault ↔
      (∃ before c after due, text = before ++ c :: after ∧ LeavesOpen due before ∧ Held before ∧
        isCloser c = true ∧ due.head? ≠ some c ∧ fault = .unbalancedBracket c line) ∨
      ∃ closer due, LeavesOpen (closer :: due) text ∧ Held text ∧
        fault = .unclosedBracket closer line := by
  refine ⟨scanType_eq_ok_iff line text, ?_, fun fault => ?_⟩
  · simp only [← scanType_eq_ok_iff line]
    cases scanType line text with
    | ok split => exact iff_of_false nofun fun hnone => hnone ⟨split.1, split.2, rfl⟩
    | error fault => exact iff_of_true ⟨fault, rfl⟩ nofun
  · rw [scanType, scanFrom_eq_error_iff]
    simp only [exists_unbalanced_iff, dueAfter_eq_some_iff, heldFrom_iff]

/-- A blank in brackets is no end, and the one behind them is. -/
example : scanType 1 "array\x7bid: int\x7d[] $x".toList
    = .ok ("array\x7bid: int\x7d[]".toList, " $x".toList) := rfl

end Docblock

end ViewContract
