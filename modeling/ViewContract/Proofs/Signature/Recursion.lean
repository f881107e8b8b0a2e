/-
ViewContract.Proofs.Signature.Recursion — why the reading of a parameter list ends.

The readers count their steps, which a reader without a counter does not. So the recursion is said
here with a bound for the nested steps and an arbitrary answer for the case that it is used up, and
one fact about a single step carries all the rest: a step calls only for what comes later in the
tokens, or for less of it.

  §1 the rank of a call, and one step by its calls (`Reading.step_congr`).
  §2 runs. No more steps are nested than the rank says, so what would be answered after them does
     not matter (`Reading.run_eq`).
  §3 the same for the list of the parameters, where each round takes a comma (`runList_eq`).
-/
import ViewContract.Proofs.Annotation.Declared

namespace ViewContract

namespace Signature

open Text

/-! ## 1. Steps -/

theorem length_of_startsWith {c : Char} {tokens : List Token} (h : startsWith c tokens = true) :
    (tokens.drop 1).length < tokens.length := by
  cases tokens with
  | nil => cases h
  | cons token rest => exact Nat.lt_succ_self rest.length

namespace Reading

/-- A bound for the calls that are nested in a call. A default is called for with the tokens of an
array as they are, and calls for less. -/
def rank : Reading → Nat
  | .default tokens => 2 * tokens.length
  | .named _ tokens | .array _ _ tokens => 2 * tokens.length + 1

section step

variable {stop room : Nat} {ask ask' : Nat → Reading → Answer}

theorem default_congr {tokens : List Token}
    (h : ∀ room, ∀ r : Reading, r.tokens <:+ tokens → r.rank < rank (.default tokens) →
      ask room r = ask' room r) :
    step stop ask room (.default tokens) = step stop ask' room (.default tokens) := by
  cases tokens with
  | nil => rfl
  | cons token rest =>
    have hitems : ∀ room, ask room (.array ']' [] rest) = ask' room (.array ']' [] rest) :=
      fun room => h room _ (List.suffix_cons token rest) (by simp [rank]; omega)
    have hnamed : ∀ room, ask room (.named token.text rest) = ask' room (.named token.text rest) :=
      fun room => h room _ (List.suffix_cons token rest) (by simp [rank]; omega)
    simp only [step, hitems, hnamed]

theorem named_congr {name : Text} {tokens : List Token}
    (h : ∀ room, ∀ r : Reading, r.tokens <:+ tokens → r.rank < rank (.named name tokens) →
      ask room r = ask' room r) :
    step stop ask room (.named name tokens) = step stop ask' room (.named name tokens) := by
  have hitems : ∀ left, left <:+ tokens → startsWith '(' left = true →
      (fun room => ask room (.array ')' [] (left.drop 1)))
        = fun room => ask' room (.array ')' [] (left.drop 1)) := by
    intro left hsuffix hopens
    funext room
    refine h room _ ((List.drop_suffix 1 left).trans hsuffix) ?_
    have hdrop := length_of_startsWith hopens
    have hlength := hsuffix.length_le
    simp only [rank]
    omega
  simp only [step]
  split
  · rfl
  · split
    · rfl
    · split
      · rfl
      · split
        · rename_i harray
          rw [hitems tokens (List.suffix_refl _) (Bool.and_eq_true_iff.mp harray).2]
        · split
          · -- a construction and its arguments
            refine bind_congr_of_ok fun read hclass => ?_
            obtain ⟨ofClass, rest⟩ := read
            obtain ⟨rfl, -⟩ := suffix_of_expectKind hclass
            dsimp only
            split
            · rw [hitems rest (List.suffix_cons _ _) ‹_›]
            · rfl
          · rfl

/-- The further items of an array come after a comma. -/
theorem afterItem_congr {closer : Char} (items : List Value) {tokens left : List Token}
    (h : ∀ room, ∀ r : Reading, r.tokens <:+ tokens → r.rank < rank (.array closer items tokens) →
      ask room r = ask' room r)
    (hsuffix : left <:+ tokens) :
    afterItem stop ask room closer items left = afterItem stop ask' room closer items left := by
  rw [afterItem, afterItem]
  split
  · rfl
  · split
    · rename_i hcomma
      refine h room _ ((List.drop_suffix 1 left).trans hsuffix) ?_
      have hdrop := length_of_startsWith hcomma
      have hlength := hsuffix.length_le
      simp only [rank]
      omega
    · rfl

theorem array_congr {closer : Char} {items : List Value} {tokens : List Token}
    (hleft : ∀ room tokens v rest, ask room (.default tokens) = .ok (v, rest) → rest <:+ tokens)
    (h : ∀ room, ∀ r : Reading, r.tokens <:+ tokens → r.rank < rank (.array closer items tokens) →
      ask room r = ask' room r) :
    step stop ask room (.array closer items tokens)
      = step stop ask' room (.array closer items tokens) := by
  have hdefault : ∀ left, left <:+ tokens →
      (fun room => ask room (.default left)) = fun room => ask' room (.default left) := by
    intro left hsuffix
    funext room
    refine h room _ hsuffix ?_
    have hlength := hsuffix.length_le
    simp only [rank]
    omega
  rw [step_array, step_array]
  split
  · rfl
  · rw [← hdefault tokens (List.suffix_refl _)]
    refine bind_congr_of_ok fun read hitem => ?_
    obtain ⟨item, after⟩ := read
    have hafter : after <:+ tokens := by
      obtain ⟨inner, -, hinner⟩ := exists_of_deeper_eq_ok hitem
      exact hleft inner tokens item after hinner
    dsimp only
    split
    · -- the item is a key, and its value is read, too
      rename_i rest
      have hrest : rest <:+ tokens := (List.suffix_cons _ rest).trans hafter
      rw [← hdefault rest hrest]
      refine bind_congr_of_ok fun read hvalue => ?_
      obtain ⟨value, left⟩ := read
      obtain ⟨inner, -, hinner⟩ := exists_of_deeper_eq_ok hvalue
      exact afterItem_congr _ h ((hleft inner rest value left hinner).trans hrest)
    · exact afterItem_congr _ h hafter

/-- A step calls for ends of its tokens only, and only for lower ranks. -/
theorem step_congr {r : Reading}
    (hleft : ∀ room tokens v rest, ask room (.default tokens) = .ok (v, rest) → rest <:+ tokens)
    (h : ∀ room, ∀ r' : Reading, r'.tokens <:+ r.tokens → r'.rank < r.rank →
      ask room r' = ask' room r') :
    r.step stop ask room = r.step stop ask' room := by
  cases r with
  | default tokens => exact default_congr h
  | named name tokens => exact named_congr h
  | array closer items tokens => exact array_congr hleft h

end step

/-! ## 2. Runs -/

/-- A reader that answers `spent` once its steps are used up. -/
def run (stop : Nat) (spent : BodyError) : Nat → Nat → Reading → Answer
  | 0, _, _ => .error spent
  | fuel + 1, room, r => r.step stop (run stop spent fuel) room

/-- **No call uses up more steps than its rank**: with one step more the reader answers as it does
with any number of further steps, and as it would without counting. -/
theorem run_eq {stop fuel : Nat} (fuel' room : Nat) {r : Reading} (spent : BodyError)
    (h : r.rank < fuel) (h' : r.rank < fuel') :
    r.run stop spent fuel room = r.read stop fuel' room := by
  induction fuel generalizing r fuel' room with
  | zero => exact absurd h (Nat.not_lt_zero _)
  | succ fuel ih =>
    obtain ⟨fuel', rfl⟩ := Nat.exists_eq_succ_of_ne_zero (Nat.ne_zero_of_lt h')
    rw [run, Nat.succ_eq_add_one, read_succ]
    refine (step_congr (fun _ _ _ _ hread => (of_read hread).2) fun room r' _ hrank => ?_).symm
    exact (ih fuel' room (by omega) (by omega)).symm

end Reading

/-! ## 3. The list -/

/-- One parameter, where `ask` answers for the default. -/
def stepParameter (stop : Nat) (ask : Reading → Answer) (tokens : List Token) :
    Except BodyError (Declaration × List Token) := do
  let (typeName, rest) ← readTypeName stop tokens
  let (name, rest) ← readVariable stop rest
  let typing ← (typingOfName typeName).mapError .grammar
  if startsWith '=' rest then
    let (value, rest) ← ask (.default (rest.drop 1))
    let default ← (Literal.ofValue value).mapError DefaultError.inBody
    let d ← Declaration.inBody
      { name, required := false, type := typing.type, default := some default,
        nullable := typing.nullable }
    pure (d, rest)
  else
    let d ← Declaration.inBody
      { name, required := true, type := typing.type, nullable := typing.nullable }
    pure (d, rest)

/-- The parameters up to the end of the body, where `fuel` bounds both the rounds and the steps of
each default, and `spent` is the answer once it is used up. -/
def runList (stop : Nat) (spent : BodyError) (room : Nat) : Nat → List Token →
    Except BodyError (List Declaration)
  | _, [] => .ok []
  | 0, _ => .error spent
  | fuel + 1, tokens => do
    let (d, rest) ← stepParameter stop (Reading.run stop spent fuel room) tokens
    match rest with
    | [] => pure [d]
    | _ =>
      if startsWith ',' rest then
        let ds ← runList stop spent room fuel (rest.drop 1)
        pure (d :: ds)
      else unexpected stop .comma rest

theorem readParameter_eq (stop room fuel : Nat) (tokens : List Token) :
    readParameter stop room fuel tokens = stepParameter stop (Reading.read stop fuel room) tokens :=
  rfl

/-- A parameter calls for a default behind its variable and its equals sign only. -/
theorem stepParameter_congr {stop : Nat} {ask ask' : Reading → Answer} {tokens : List Token}
    (h : ∀ left, left <:+ tokens → left.length + 2 ≤ tokens.length →
      ask (.default left) = ask' (.default left)) :
    stepParameter stop ask tokens = stepParameter stop ask' tokens := by
  refine bind_congr_of_ok fun ⟨typeName, afterType⟩ htype => ?_
  refine bind_congr_of_ok fun ⟨name, afterName⟩ hname => ?_
  refine bind_congr_of_ok fun typing _ => ?_
  obtain ⟨token, rfl, -⟩ := exists_cons_of_readVariable hname
  have hsuffix := suffix_of_readTypeName htype
  dsimp only
  split
  · rename_i hequals
    have hdrop := length_of_startsWith hequals
    have hlength := hsuffix.length_le
    rw [List.length_cons] at hlength
    rw [h (afterName.drop 1)
      (((List.drop_suffix 1 afterName).trans (List.suffix_cons token afterName)).trans hsuffix)
      (by omega)]
  · rfl

/-- **The list needs no more steps than twice its tokens**: with that many it is what is read with
any number of rounds that suffice, and as it would be without counting. -/
theorem runList_eq {stop room fuel : Nat} (fuel' : Nat) {tokens : List Token} (spent : BodyError)
    (h : 2 * tokens.length ≤ fuel) (h' : tokens.length ≤ fuel') :
    runList stop spent room fuel tokens = readParameters stop room fuel' tokens := by
  induction fuel generalizing tokens fuel' with
  | zero =>
    obtain rfl := List.eq_nil_of_length_eq_zero (by omega : tokens.length = 0)
    cases fuel' <;> rfl
  | succ fuel ih =>
    cases tokens with
    | nil => cases fuel' <;> rfl
    | cons token rest =>
      rw [List.length_cons] at h h'
      obtain ⟨fuel', rfl⟩ := Nat.exists_eq_succ_of_ne_zero (Nat.ne_zero_of_lt h')
      have hparameter : readParameter stop room (2 * (token :: rest).length + 1) (token :: rest)
          = stepParameter stop (Reading.run stop spent fuel room) (token :: rest) := by
        rw [readParameter_eq]
        refine stepParameter_congr fun left _ hlength => (Reading.run_eq _ room spent ?_ ?_).symm
        all_goals
          rw [List.length_cons] at hlength
          simp only [Reading.rank, List.length_cons]
          omega
      rw [runList, readParameters, hparameter]
      · refine bind_congr_of_ok fun ⟨d, left⟩ hd => ?_
        rw [← hparameter] at hd
        have hlength := (suffix_of_readParameter hd).length_le
        rw [List.length_cons] at hlength
        cases left with
        | nil => rfl
        | cons next left =>
          dsimp only
          split
          · rename_i hcomma
            have hdrop := length_of_startsWith hcomma
            rw [ih fuel' (by omega) (by omega)]
          · rfl
      all_goals exact nofun

end Signature

end ViewContract
