/-
ViewContract.Proofs.Signature.Depth — how deep the reading of a parameter list goes.

A reader that is called by another one takes up room on the stack, and where none is left the
reading ends with an error that is none of the grammar. How deep a reading goes is said here
without the stack: by the calls that lead from a reader to the ones inside it (`Nests`). A list
fills the stack exactly if it has a default that nests deeper than the room there is, and what is
in front of that default is read; otherwise more room changes nothing.

  §1 answers that are the same but for some errors (`UpTo`), and the readers with more steps or
     more room.
  §2 nesting, and when a default fills the stack (`exists_nests`, `depth_of_nests`).
  §3 parameters and bodies (`declarations_eq_range_iff`, `declarations_eq_depth_iff`).
-/
import ViewContract.Proofs.Signature.Coverage
import ViewContract.Proofs.Signature.Range
import ViewContract.Proofs.Signature.Recursion

namespace ViewContract

/-- Two answers that are the same, unless the first is one of certain errors. -/
def UpTo {α : Type} (E : BodyError → Prop) (x y : Except BodyError α) : Prop :=
  (∃ e, E e ∧ x = .error e) ∨ x = y

section upTo

variable {α β : Type} {E : BodyError → Prop}

theorem UpTo.refl (x : Except BodyError α) : UpTo E x x :=
  .inr rfl

theorem UpTo.bind {x y : Except BodyError α} {f g : α → Except BodyError β} (h : UpTo E x y)
    (hf : ∀ a, UpTo E (f a) (g a)) : UpTo E (x >>= f) (y >>= g) := by
  rcases h with ⟨e, he, rfl⟩ | rfl
  · exact .inl ⟨e, he, rfl⟩
  · cases x with
    | error e => exact .inr rfl
    | ok a => exact hf a

theorem UpTo.eq_of_ok {x y : Except BodyError α} {a : α} (h : UpTo E x y) (hx : x = .ok a) :
    y = .ok a := by
  rcases h with ⟨e, _, he⟩ | h
  · exact nomatch he.symm.trans hx
  · exact h ▸ hx

/-- Up to a full stack, an answer is the one that is given elsewhere or there is none. -/
theorem UpTo.depth_or_eq {x y : Except BodyError α} (h : UpTo (· = .range .depth) x y) :
    x = .error (.range .depth) ∨ x = y :=
  h.imp_left fun ⟨_, he, hx⟩ => he ▸ hx

/-- What is answered with some steps and room is answered with any, or the stack is full before. -/
theorem depth_or_eq_of_enough {answer : Nat → Nat → Except BodyError α}
    (hmore : ∀ {fuel fuel' room room' : Nat}, fuel ≤ fuel' → room ≤ room' →
      UpTo (· = .range .depth) (answer fuel room) (answer fuel' room'))
    {fuel' room' : Nat} {a : α} (h : answer fuel' room' = .ok a) (fuel room : Nat) :
    answer fuel room = .error (.range .depth) ∨ answer fuel room = .ok a := by
  have hmost : answer (max fuel fuel') (max room room') = .ok a :=
    (hmore (le_max_right _ _) (le_max_right _ _)).eq_of_ok h
  rw [← hmost]
  exact (hmore (le_max_left _ _) (le_max_left _ _)).depth_or_eq

end upTo

namespace Signature

open Text

variable {stop : Nat} {E : BodyError → Prop} {fault : RangeFault}

/-! ## 1. More steps and more room -/

section step

variable (hE : E (.range .depth))

include hE

theorem upTo_deeper {α : Type} {room room' : Nat} (hroom : room ≤ room')
    {read read' : Nat → Except BodyError α}
    (h : ∀ inner inner', inner ≤ inner' → UpTo E (read inner) (read' inner')) :
    UpTo E (deeper room read) (deeper room' read') := by
  cases room with
  | zero => exact .inl ⟨_, hE, rfl⟩
  | succ room =>
    obtain ⟨room', rfl⟩ := Nat.exists_eq_add_of_le' hroom
    exact h room _ (Nat.le_add_left _ _)

namespace Reading

variable {ask ask' : Nat → Reading → Answer}
  (hask : ∀ room room' r, room ≤ room' → UpTo E (ask room r) (ask' room' r))

include hask

omit hE in
theorem upTo_afterItem {room room' : Nat} (hroom : room ≤ room') (closer : Char)
    (items : List Value) (tokens : List Token) :
    UpTo E (afterItem stop ask room closer items tokens)
      (afterItem stop ask' room' closer items tokens) := by
  rw [afterItem, afterItem]
  split_ifs
  · exact .refl _
  · exact hask _ _ _ hroom
  · exact .refl _

/-- A step with more room answers the same, as far as its calls do. -/
theorem upTo_step {room room' : Nat} (hroom : room ≤ room') (r : Reading) :
    UpTo E (r.step stop ask room) (r.step stop ask' room') := by
  have hdeeper : ∀ r : Reading,
      UpTo E (deeper room fun room => ask room r) (deeper room' fun room => ask' room r) :=
    fun r => upTo_deeper hE hroom fun inner inner' => hask inner inner' r
  cases r with
  | default tokens =>
    cases tokens with
    | nil => exact .refl _
    | cons token rest =>
      cases hkind : token.kind
      all_goals simp only [step, hkind]
      case punctuation =>
        split
        · exact .refl _
        · split
          · exact hdeeper _
          · exact .refl _
      case name => exact hdeeper _
      all_goals exact .refl _
  | named name tokens =>
    simp only [step]
    split_ifs
    · exact .refl _
    · exact .refl _
    · exact .refl _
    · exact hdeeper _
    · refine (UpTo.refl _).bind fun read => ?_
      split_ifs
      · exact (hdeeper _).bind fun _ => .refl _
      · exact .refl _
    · exact .refl _
  | array closer items tokens =>
    rw [step_array, step_array]
    split_ifs
    · exact .refl _
    · refine (hdeeper _).bind fun read => ?_
      dsimp only
      split
      · exact (hdeeper _).bind fun _ => upTo_afterItem hask hroom _ _ _
      · exact upTo_afterItem hask hroom _ _ _

end Reading

end step

namespace Reading

/-- A reader whose steps run out as its room does. -/
def within (stop : Nat) : Nat → Nat → Reading → Answer :=
  run stop (.range .depth)

theorem upTo_within {fuel fuel' : Nat} (hfuel : fuel ≤ fuel') {room room' : Nat}
    (hroom : room ≤ room') (r : Reading) :
    UpTo (· = .range .depth) (r.within stop fuel room) (r.within stop fuel' room') := by
  induction fuel generalizing fuel' room room' r with
  | zero => exact .inl ⟨_, rfl, rfl⟩
  | succ fuel ih =>
    obtain ⟨fuel', rfl⟩ := Nat.exists_eq_add_of_le' hfuel
    exact upTo_step (E := (· = .range .depth)) rfl
      (fun _ _ r hroom => ih (Nat.le_add_left _ _) hroom r) hroom r

/-- What is read when the steps suffice is read when they run out with the room. -/
theorem upTo_within_of_read (fuel room : Nat) (r : Reading) :
    UpTo (fun _ => True) (r.read stop fuel room) (r.within stop fuel room) := by
  have hmore : ∀ room room' r, room ≤ room' →
      UpTo (fun _ => True) (read stop fuel room r) (within stop fuel room' r) := by
    induction fuel with
    | zero =>
      intro room room' r _
      cases hread : r.read stop 0 room with
      | error e => exact .inl ⟨e, trivial, rfl⟩
      | ok a => cases r <;> exact absurd hread unexpected_ne_ok
    | succ fuel ih =>
      intro room room' r hroom
      rw [read_succ]
      exact upTo_step trivial ih hroom r
  exact hmore room room r (Nat.le_refl room)

end Reading

/-! ## 2. Nesting -/

/-! The readers that call none inside them never fill the stack. -/

theorem inRange_unexpected {α : Type} (what : Expected) (tokens : List Token) :
    InRange (fun _ => True) (unexpected (α := α) stop what tokens) := by
  cases tokens <;> exact trivial

theorem inRange_expectKind (kind : TokenKind) (what : Expected) (tokens : List Token) :
    InRange (fun _ => True) (expectKind stop kind what tokens) := by
  rw [expectKind.eq_def]
  split
  · split
    · exact trivial
    · exact inRange_unexpected _ _
  · exact inRange_unexpected _ _

theorem inRange_readTypeName (tokens : List Token) :
    InRange (fun _ => True) (readTypeName stop tokens) := by
  rw [readTypeName.eq_def]
  split
  · exact (inRange_expectKind _ _ _).bind fun _ => trivial
  · split <;> exact trivial

theorem inRange_readVariable (tokens : List Token) :
    InRange (fun _ => True) (readVariable stop tokens) := by
  rw [readVariable.eq_def]
  split
  · exact trivial
  · exact (inRange_expectKind _ _ _).bind fun _ => trivial

/-- A default is read from some tokens, given steps and room enough. -/
def Reads (stop : Nat) (tokens : List Token) (v : Value) (rest : List Token) : Prop :=
  ∃ fuel room, readDefault stop room fuel tokens = .ok (v, rest)

/-- An item of an array is read from some tokens: a value, or a key with an arrow and its value. -/
inductive ReadsItem (stop : Nat) (tokens : List Token) : Value → List Token → Prop
  | alone {v : Value} {rest : List Token} (h : Reads stop tokens v rest)
      (harrow : ∀ text position others, rest ≠ ⟨.arrow, text, position⟩ :: others) :
      ReadsItem stop tokens v rest
  | pair {key v : Value} {text : Text} {position : Nat} {middle rest : List Token}
      (hkey : Reads stop tokens key (⟨.arrow, text, position⟩ :: middle))
      (h : Reads stop middle v rest) : ReadsItem stop tokens (.tuple [key, v]) rest

theorem Reads.suffix {tokens rest : List Token} {v : Value} (h : Reads stop tokens v rest) :
    rest <:+ tokens := by
  obtain ⟨fuel, room, hread⟩ := h
  exact (Reading.of_read (r := .default tokens) hread).2

theorem ReadsItem.suffix {tokens rest : List Token} {v : Value}
    (h : ReadsItem stop tokens v rest) : rest <:+ tokens := by
  cases h with
  | alone h _ => exact h.suffix
  | pair hkey h => exact (h.suffix.trans (List.suffix_cons _ _)).trans hkey.suffix

namespace Reading

/-- A reading comes to be a number of calls deep: the reader of a default calls the one of an
array, or that of names, which calls the one of an array for an `array` and for the arguments of a
construction. An array calls for its items, for each after those before it. -/
inductive Nests (stop : Nat) : Reading → Nat → Prop
  | here (r : Reading) : Nests stop r 0
  | bracket {position n : Nat} {rest : List Token} (h : Nests stop (.array ']' [] rest) n) :
      Nests stop (.default (⟨.punctuation, ['['], position⟩ :: rest)) (n + 1)
  | name {text : Text} {position n : Nat} {rest : List Token}
      (h : Nests stop (.named text rest) n) :
      Nests stop (.default (⟨.name, text, position⟩ :: rest)) (n + 1)
  | array {name : Text} {tokens : List Token} {n : Nat} (hname : lower name = "array".toList)
      (hopens : startsWith '(' tokens = true) (h : Nests stop (.array ')' [] (tokens.drop 1)) n) :
      Nests stop (.named name tokens) (n + 1)
  | construction {name text : Text} {position n : Nat} {rest : List Token}
      (hname : lower name = "new".toList) (hopens : startsWith '(' rest = true)
      (h : Nests stop (.array ')' [] (rest.drop 1)) n) :
      Nests stop (.named name (⟨.name, text, position⟩ :: rest)) (n + 1)
  | item {closer : Char} {items : List Value} {tokens : List Token} {n : Nat}
      (hopen : startsWith closer tokens = false) (h : Nests stop (.default tokens) n) :
      Nests stop (.array closer items tokens) (n + 1)
  | value {closer : Char} {items : List Value} {tokens rest : List Token} {key : Value}
      {text : Text} {position n : Nat} (hopen : startsWith closer tokens = false)
      (hkey : Reads stop tokens key (⟨.arrow, text, position⟩ :: rest))
      (h : Nests stop (.default rest) n) : Nests stop (.array closer items tokens) (n + 1)
  | next {closer : Char} {items : List Value} {tokens rest : List Token} {v : Value} {n : Nat}
      (hopen : startsWith closer tokens = false) (hitem : ReadsItem stop tokens v rest)
      (hmore : startsWith closer rest = false) (hcomma : startsWith ',' rest = true)
      (h : Nests stop (.array closer (v :: items) (rest.drop 1)) n) :
      Nests stop (.array closer items tokens) n

theorem exists_of_deeper_eq_range {room : Nat} {read : Nat → Answer} {r : Reading}
    (h : deeper room read = .error (.range fault))
    (hread : ∀ inner, read inner = .error (.range fault) →
      fault = .depth ∧ ∃ n, inner < n ∧ r.Nests stop n) :
    fault = .depth ∧ ∃ n, room < n + 1 ∧ r.Nests stop n := by
  cases room with
  | zero => exact ⟨(BodyError.range.inj (Except.error.inj h)).symm, 0, Nat.zero_lt_one, .here r⟩
  | succ inner =>
    obtain ⟨rfl, n, hn, hnests⟩ := hread inner h
    exact ⟨rfl, n, Nat.succ_lt_succ hn, hnests⟩

section step

variable {ask : Nat → Reading → Answer} {room : Nat}
  (hask : ∀ room r, ask room r = .error (.range fault) →
    fault = .depth ∧ ∃ n, room < n ∧ r.Nests stop n)
  (hreads : ∀ room tokens v rest, ask room (.default tokens) = .ok (v, rest) →
    Reads stop tokens v rest)

include hask

theorem exists_nests_default {tokens : List Token}
    (h : step stop ask room (.default tokens) = .error (.range fault)) :
    fault = .depth ∧ ∃ n, room < n ∧ (Reading.default tokens).Nests stop n := by
  cases tokens with
  | nil =>
    rw [step] at h
    exact absurd h ((inRange_unexpected _ _).ne fault)
  | cons token rest =>
    obtain ⟨kind, text, position⟩ := token
    cases kind
    all_goals simp only [step] at h
    case punctuation =>
      split at h
      · obtain ⟨⟨digits, after⟩, -, h⟩ := (inRange_expectKind _ _ _).bind_eq_range_iff.mp h
        obtain ⟨number, -, h⟩ := (inRange_mapError _ _).bind_eq_range_iff.mp h
        cases h
      · split at h
        · rename_i hbracket
          obtain rfl : text = ['['] := hbracket
          obtain ⟨rfl, n, hn, hnests⟩ := exists_of_deeper_eq_range h fun inner => hask inner _
          exact ⟨rfl, n + 1, hn, .bracket hnests⟩
        · exact absurd h ((inRange_unexpected _ _).ne fault)
    case name =>
      obtain ⟨rfl, n, hn, hnests⟩ := exists_of_deeper_eq_range h fun inner => hask inner _
      exact ⟨rfl, n + 1, hn, .name hnests⟩
    case number =>
      obtain ⟨number, -, h⟩ := (inRange_mapError _ _).bind_eq_range_iff.mp h
      cases h
    case string =>
      obtain ⟨text, -, h⟩ := (inRange_grammar _).bind_eq_range_iff.mp h
      cases h
    all_goals exact absurd h ((inRange_unexpected _ _).ne fault)

theorem exists_nests_named {name : Text} {tokens : List Token}
    (h : step stop ask room (.named name tokens) = .error (.range fault)) :
    fault = .depth ∧ ∃ n, room < n ∧ (Reading.named name tokens).Nests stop n := by
  simp only [step] at h
  split at h
  · cases h
  · split at h
    · cases h
    · split at h
      · cases h
      · split at h
        · rename_i harray
          obtain ⟨hname, hopens⟩ := Bool.and_eq_true_iff.mp harray
          obtain ⟨rfl, n, hn, hnests⟩ := exists_of_deeper_eq_range h fun inner => hask inner _
          exact ⟨rfl, n + 1, hn, .array (of_decide_eq_true hname) hopens hnests⟩
        · split at h
          · rename_i hnew
            obtain ⟨⟨ofClass, rest⟩, hclass, hrest⟩ :=
              (inRange_expectKind _ _ _).bind_eq_range_iff.mp h
            obtain ⟨rfl, hkind⟩ := suffix_of_expectKind hclass
            obtain ⟨kind, text, position⟩ := ofClass
            obtain rfl : kind = .name := hkind
            dsimp only at hrest
            split at hrest
            · rename_i hopens
              have hitems := (bind_eq_range_iff fun _ => inRange_ok _).mp hrest
              obtain ⟨rfl, n, hn, hnests⟩ :=
                exists_of_deeper_eq_range hitems fun inner => hask inner _
              exact ⟨rfl, n + 1, hn, .construction hnew hopens hnests⟩
            · cases hrest
          · split at h
            · obtain ⟨_, -, h⟩ := (inRange_expectKind _ _ _).bind_eq_range_iff.mp h
              cases h
            · cases h

include hreads

theorem exists_nests_array {closer : Char} {items : List Value} {tokens : List Token}
    (h : step stop ask room (.array closer items tokens) = .error (.range fault)) :
    fault = .depth ∧ ∃ n, room < n ∧ (Reading.array closer items tokens).Nests stop n := by
  rw [step_array] at h
  split at h
  · cases h
  · rename_i hopen
    have hopen : startsWith closer tokens = false := Bool.eq_false_iff.mpr hopen
    -- behind an item only the further items can fill the stack
    have hafter : ∀ v rest, ReadsItem stop tokens v rest →
        afterItem stop ask room closer (v :: items) rest = .error (.range fault) →
        fault = .depth ∧ ∃ n, room < n ∧ (Reading.array closer items tokens).Nests stop n := by
      intro v rest hitem h
      rw [afterItem] at h
      split at h
      · cases h
      · split at h
        · obtain ⟨rfl, n, hn, hnests⟩ := hask _ _ h
          exact ⟨rfl, n, hn, .next hopen hitem (Bool.eq_false_iff.mpr ‹_›) ‹_› hnests⟩
        · exact absurd h ((inRange_unexpected _ _).ne fault)
    rcases error_of_bind h with h | ⟨⟨v, rest⟩, hread, h⟩
    · obtain ⟨rfl, n, hn, hnests⟩ := exists_of_deeper_eq_range h fun inner => hask inner _
      exact ⟨rfl, n + 1, hn, .item hopen hnests⟩
    · obtain ⟨inner, -, hread⟩ := exists_of_deeper_eq_ok hread
      have hfirst := hreads _ _ _ _ hread
      dsimp only at h
      split at h
      · rcases error_of_bind h with h | ⟨⟨w, left⟩, hvalue, h⟩
        · obtain ⟨rfl, n, hn, hnests⟩ := exists_of_deeper_eq_range h fun inner => hask inner _
          exact ⟨rfl, n + 1, hn, .value hopen hfirst hnests⟩
        · obtain ⟨inner', -, hvalue⟩ := exists_of_deeper_eq_ok hvalue
          exact hafter _ _ (.pair hfirst (hreads _ _ _ _ hvalue)) h
      · rename_i harrow
        exact hafter _ _ (.alone hfirst fun text position others heq =>
          harrow text position others heq) h

end step

/-- **A reader that finds the stack full nests deeper than its room.** -/
theorem exists_nests {fuel room : Nat} {r : Reading}
    (h : r.read stop fuel room = .error (.range fault)) :
    fault = .depth ∧ ∃ n, room < n ∧ r.Nests stop n := by
  induction fuel generalizing room r with
  | zero => cases r <;> exact absurd h ((inRange_unexpected _ _).ne fault)
  | succ fuel ih =>
    rw [read_succ] at h
    have hask : ∀ room r, read stop fuel room r = .error (.range fault) →
        fault = .depth ∧ ∃ n, room < n ∧ r.Nests stop n := fun _ _ => ih
    cases r with
    | default tokens => exact exists_nests_default hask h
    | named name tokens => exact exists_nests_named hask h
    | array closer items tokens =>
      exact exists_nests_array hask (fun room _ _ _ hread => ⟨fuel, room, hread⟩) h

/-! Where the stack is not full, a default is read as it is with more room. -/

theorem within_eq_of_reads {tokens rest : List Token} {v : Value} (h : Reads stop tokens v rest)
    (fuel room : Nat) : within stop fuel room (.default tokens) = .error (.range .depth) ∨
      within stop fuel room (.default tokens) = .ok (v, rest) := by
  obtain ⟨fuel', room', hread⟩ := h
  exact depth_or_eq_of_enough (fun hfuel hroom => upTo_within hfuel hroom (.default tokens))
    ((upTo_within_of_read fuel' room' (.default tokens)).eq_of_ok hread) fuel room

theorem deeper_eq_depth {room n : Nat} {read : Nat → Answer} (hroom : room < n + 1)
    (h : ∀ inner, inner < n → read inner = .error (.range .depth)) :
    deeper room read = .error (.range .depth) := by
  cases room with
  | zero => rfl
  | succ inner => exact h inner (Nat.lt_of_succ_lt_succ hroom)

theorem deeper_eq_of_reads {tokens rest : List Token} {v : Value} (h : Reads stop tokens v rest)
    (fuel room : Nat) :
    (deeper room fun room => within stop fuel room (.default tokens)) = .error (.range .depth) ∨
      (deeper room fun room => within stop fuel room (.default tokens)) = .ok (v, rest) := by
  cases room with
  | zero => exact .inl rfl
  | succ inner => exact within_eq_of_reads h fuel inner

theorem within_succ (fuel room : Nat) (r : Reading) :
    r.within stop (fuel + 1) room = r.step stop (within stop fuel) room :=
  rfl

/-- An array goes on behind an item, unless the stack is full before. -/
theorem array_eq_of_readsItem {closer : Char} {items : List Value} {tokens rest : List Token}
    {v : Value} (hopen : startsWith closer tokens = false) (hitem : ReadsItem stop tokens v rest)
    (fuel room : Nat) :
    within stop (fuel + 1) room (.array closer items tokens) = .error (.range .depth) ∨
      within stop (fuel + 1) room (.array closer items tokens)
        = afterItem stop (within stop fuel) room closer (v :: items) rest := by
  rw [within_succ, step_array, if_neg (Bool.eq_false_iff.mp hopen)]
  cases hitem with
  | alone h harrow =>
    rcases deeper_eq_of_reads h fuel room with hfull | hread
    · exact .inl (by rw [hfull]; rfl)
    · right
      rw [hread]
      dsimp only [bind, Except.bind]
      split
      · exact absurd rfl (harrow _ _ _)
      · rfl
  | pair hkey h =>
    rcases deeper_eq_of_reads hkey fuel room with hfull | hread
    · exact .inl (by rw [hfull]; rfl)
    · rw [hread]
      rcases deeper_eq_of_reads h fuel room with hfull | hvalue
      · exact .inl (by simp only [bind, Except.bind, hfull])
      · exact .inr (by simp only [bind, Except.bind, hvalue])

/-- **A reader that nests deeper than its room finds the stack full.** -/
theorem depth_of_nests {r : Reading} {n : Nat} (h : r.Nests stop n) {fuel room : Nat}
    (hroom : room < n) : r.within stop fuel room = .error (.range .depth) := by
  induction h generalizing fuel room with
  | here => exact absurd hroom (Nat.not_lt_zero room)
  | bracket _ ih | name _ ih =>
    cases fuel with
    | zero => rfl
    | succ fuel => exact deeper_eq_depth hroom fun _ => ih
  | array hname hopens _ ih =>
    cases fuel with
    | zero => rfl
    | succ fuel =>
      simp only [within_succ, step, hname, hopens]
      exact deeper_eq_depth hroom fun _ => ih
  | @construction name text position n rest hname hopens _ ih =>
    cases fuel with
    | zero => rfl
    | succ fuel =>
      have harguments := deeper_eq_depth hroom fun _ => @ih fuel _
      simp only [within_succ, step, hname, expectKind, if_true, bind, Except.bind, hopens,
        harguments]
      rfl
  | item hopen _ ih =>
    cases fuel with
    | zero => rfl
    | succ fuel =>
      rw [within_succ, step_array, if_neg (Bool.eq_false_iff.mp hopen),
        deeper_eq_depth hroom fun _ => ih]
      rfl
  | value hopen hkey _ ih =>
    cases fuel with
    | zero => rfl
    | succ fuel =>
      rw [within_succ, step_array, if_neg (Bool.eq_false_iff.mp hopen)]
      rcases deeper_eq_of_reads hkey fuel room with hfull | hread
      · rw [hfull]
        rfl
      · rw [hread]
        simp only [bind, Except.bind, deeper_eq_depth hroom fun _ => ih]
  | next hopen hitem hmore hcomma _ ih =>
    cases fuel with
    | zero => rfl
    | succ fuel =>
      rcases array_eq_of_readsItem hopen hitem fuel room with hfull | hafter
      · exact hfull
      · rw [hafter, afterItem, if_neg (Bool.eq_false_iff.mp hmore), if_pos hcomma]
        exact ih hroom

/-- No reader nests deeper than its rank. -/
theorem Nests.le_rank {r : Reading} {n : Nat} (h : r.Nests stop n) : n ≤ r.rank := by
  induction h with
  | here => exact Nat.zero_le _
  | bracket _ ih | name _ ih | item _ _ ih =>
    simp only [rank, List.length_cons] at ih ⊢
    omega
  | array _ hopens _ ih | construction _ hopens _ ih =>
    have := length_of_startsWith hopens
    simp only [rank, List.length_cons] at ih ⊢
    omega
  | value _ hkey _ ih =>
    have := hkey.suffix.length_le
    simp only [rank, List.length_cons] at ih this ⊢
    omega
  | next _ hitem _ hcomma _ ih =>
    have := length_of_startsWith hcomma
    have := hitem.suffix.length_le
    simp only [rank] at ih ⊢
    omega

end Reading

/-! ## 3. Parameters and bodies -/

theorem upTo_stepParameter {ask ask' : Reading → Answer} (hask : ∀ r, UpTo E (ask r) (ask' r))
    (tokens : List Token) :
    UpTo E (stepParameter stop ask tokens) (stepParameter stop ask' tokens) := by
  refine (UpTo.refl _).bind fun _ => (UpTo.refl _).bind fun _ => (UpTo.refl _).bind fun _ => ?_
  dsimp only
  split
  · exact (hask _).bind fun _ => .refl _
  · exact .refl _

/-- A parameter is read from some tokens, given steps and room enough. -/
def ReadsParameter (stop : Nat) (tokens : List Token) (d : Declaration) (rest : List Token) :
    Prop :=
  ∃ fuel room, readParameter stop room fuel tokens = .ok (d, rest)

theorem ReadsParameter.suffix {tokens rest : List Token} {d : Declaration}
    (h : ReadsParameter stop tokens d rest) : rest <:+ tokens := by
  obtain ⟨fuel, room, hread⟩ := h
  exact suffix_of_readParameter hread

/-- The first parameters of a list are read, and the default of the next one nests a number of
calls deep. -/
inductive NestsIn (stop : Nat) : List Token → Nat → Prop
  | default {tokens afterType afterName : List Token} {typeName name : Text} {typing : Typing}
      {n : Nat} (htype : readTypeName stop tokens = .ok (typeName, afterType))
      (hname : readVariable stop afterType = .ok (name, afterName))
      (htyping : typingOfName typeName = .ok typing) (hequals : startsWith '=' afterName = true)
      (h : (Reading.default (afterName.drop 1)).Nests stop n) : NestsIn stop tokens n
  | next {tokens rest : List Token} {d : Declaration} {n : Nat}
      (hread : ReadsParameter stop tokens d rest) (hcomma : startsWith ',' rest = true)
      (h : NestsIn stop (rest.drop 1) n) : NestsIn stop tokens n

/-- A parameter that finds the stack full does so in its default. -/
theorem nestsIn_of_readParameter {room fuel : Nat} {tokens : List Token}
    (h : readParameter stop room fuel tokens = .error (.range fault)) :
    fault = .depth ∧ ∃ n, room < n ∧ NestsIn stop tokens n := by
  obtain ⟨⟨typeName, afterType⟩, htype, h⟩ := (inRange_readTypeName _).bind_eq_range_iff.mp h
  obtain ⟨⟨name, afterName⟩, hname, h⟩ := (inRange_readVariable _).bind_eq_range_iff.mp h
  obtain ⟨typing, htyping, h⟩ := (inRange_grammar _).bind_eq_range_iff.mp h
  have hinBody : ∀ (d : Declaration) (rest : List Token),
      (do let d ← d.inBody; pure (d, rest)) ≠ .error (.range fault) := fun d rest h =>
    (inRange_inBody d).ne fault ((bind_eq_range_iff fun d => inRange_ok (d, rest)).mp h)
  dsimp only at h
  split at h
  · rename_i hequals
    rcases error_of_bind h with h | ⟨⟨v, rest⟩, hread, h⟩
    · obtain ⟨rfl, n, hn, hnests⟩ := Reading.exists_nests (r := .default _) h
      exact ⟨rfl, n, hn, .default htype hname (eq_ok_of_mapError htyping) hequals hnests⟩
    · obtain ⟨l, -, h⟩ :=
        (inRange_ofValue (plain_of_readDefault hread)).bind_eq_range_iff.mp h
      exact absurd h (hinBody _ _)
  · exact absurd h (hinBody _ _)

theorem exists_nestsIn {room fuel : Nat} {tokens : List Token}
    (h : readParameters stop room fuel tokens = .error (.range fault)) :
    fault = .depth ∧ ∃ n, room < n ∧ NestsIn stop tokens n := by
  induction fuel generalizing tokens with
  | zero =>
    cases tokens with
    | nil => cases h
    | cons token tokens => exact absurd h ((inRange_unexpected _ _).ne fault)
  | succ fuel ih =>
    cases tokens with
    | nil => cases h
    | cons token tokens =>
      rcases error_of_bind h with h | ⟨⟨d, rest⟩, hd, h⟩
      · exact nestsIn_of_readParameter h
      · dsimp only at h
        split at h
        · cases h
        · split at h
          · rename_i hcomma
            obtain ⟨rfl, n, hn, hnests⟩ := ih ((bind_eq_range_iff fun _ => inRange_ok _).mp h)
            exact ⟨rfl, n, hn, .next ⟨_, _, hd⟩ hcomma hnests⟩
          · exact absurd h ((inRange_unexpected _ _).ne fault)

/-- A parameter is read as it is with more room, unless the stack is full before. -/
theorem stepParameter_eq_of_readsParameter {tokens rest : List Token} {d : Declaration}
    (h : ReadsParameter stop tokens d rest) (fuel room : Nat) :
    stepParameter stop (Reading.within stop fuel room) tokens = .error (.range .depth) ∨
      stepParameter stop (Reading.within stop fuel room) tokens = .ok (d, rest) := by
  obtain ⟨fuel', room', hread⟩ := h
  have hwithin := (upTo_stepParameter (Reading.upTo_within_of_read fuel' room') tokens).eq_of_ok
    hread
  exact depth_or_eq_of_enough
    (fun hfuel hroom => upTo_stepParameter (Reading.upTo_within hfuel hroom) tokens) hwithin
    fuel room

theorem NestsIn.exists_cons {tokens : List Token} {n : Nat} (h : NestsIn stop tokens n) :
    ∃ token rest, tokens = token :: rest := by
  have hcons : ∀ {typeName name : Text} {afterType afterName : List Token},
      readTypeName stop tokens = .ok (typeName, afterType) →
      readVariable stop afterType = .ok (name, afterName) →
      ∃ token rest, tokens = token :: rest := by
    intro typeName name afterType afterName htype hname
    obtain ⟨token, rfl, -⟩ := exists_cons_of_readVariable hname
    cases tokens with
    | nil => exact absurd (List.suffix_nil.mp (suffix_of_readTypeName htype)) (List.cons_ne_nil _ _)
    | cons token rest => exact ⟨token, rest, rfl⟩
  cases h with
  | default htype hname _ _ _ => exact hcons htype hname
  | next hread _ _ =>
    obtain ⟨_, _, hread⟩ := hread
    obtain ⟨_, _, _, _, htype, hname, _⟩ := exists_of_readParameter hread
    exact hcons htype hname

theorem exists_cons_of_startsWith {c : Char} {tokens : List Token}
    (h : startsWith c tokens = true) : ∃ token rest, tokens = token :: rest := by
  cases tokens with
  | nil => exact nomatch h
  | cons token rest => exact ⟨token, rest, rfl⟩

/-- A list with a default that nests deeper than the room fills the stack. -/
theorem depth_of_nestsIn {tokens : List Token} {n : Nat} (h : NestsIn stop tokens n)
    {fuel room : Nat} (hroom : room < n) :
    runList stop (.range .depth) room fuel tokens = .error (.range .depth) := by
  induction h generalizing fuel with
  | @default tokens _ _ _ _ _ _ htype hname htyping hequals h =>
    obtain ⟨token, rest, rfl⟩ := (NestsIn.default htype hname htyping hequals h).exists_cons
    cases fuel with
    | zero => rfl
    | succ fuel =>
      have hdefault : Reading.within stop fuel room _ = .error (.range .depth) :=
        Reading.depth_of_nests h hroom
      have hparameter : stepParameter stop (Reading.within stop fuel room) (token :: rest)
          = .error (.range .depth) := by
        simp only [stepParameter, htype, hname, htyping, bind, Except.bind, Except.mapError,
          hequals, if_true, hdefault]
      rw [runList]
      · exact congrArg (· >>= _) hparameter
      · exact List.cons_ne_nil _ _
  | @next tokens rest d n hread hcomma h ih =>
    obtain ⟨token, others, rfl⟩ := (NestsIn.next hread hcomma h).exists_cons
    obtain ⟨comma, left, rfl⟩ := exists_cons_of_startsWith hcomma
    cases fuel with
    | zero => rfl
    | succ fuel =>
      rw [runList]
      · rcases stepParameter_eq_of_readsParameter hread fuel room with hfull | hparameter
        · exact congrArg (· >>= _) hfull
        · have hfull := @ih fuel hroom
          exact (congrArg (· >>= _) hparameter).trans
            ((if_pos hcomma).trans (congrArg (· >>= _) hfull))
      · exact List.cons_ne_nil _ _

/-- No default nests deeper than twice the tokens of its list. -/
theorem NestsIn.le {tokens : List Token} {n : Nat} (h : NestsIn stop tokens n) :
    n ≤ 2 * tokens.length := by
  induction h with
  | default htype hname _ hequals h =>
    have hrank := h.le_rank
    have hdrop := length_of_startsWith hequals
    have hleft := ((suffix_of_readVariable hname).trans (suffix_of_readTypeName htype)).length_le
    rw [Reading.rank] at hrank
    omega
  | next hread hcomma _ ih =>
    have hdrop := length_of_startsWith hcomma
    have hleft := hread.suffix.length_le
    omega

/-- A body has a default that nests deeper than some room, and what is in front of it is read. -/
def NestsDeeper (body : Text) (room : Nat) : Prop :=
  ∃ tokens n, tokenize body = .ok tokens ∧ room < n ∧ NestsIn body.length tokens n

variable {body : Text} {room : Nat}

/-- **A parameter list is out of range exactly if a default nests deeper than the stack has room
for.** -/
theorem declarations_eq_range_iff :
    declarations body room = .error (.range fault) ↔ fault = .depth ∧ NestsDeeper body room := by
  rw [declarations, (inRange_grammar _).bind_eq_range_iff]
  constructor
  · rintro ⟨tokens, htokens, h⟩
    obtain ⟨rfl, n, hroom, hnests⟩ := exists_nestsIn ((bind_eq_range_iff inRange_distinct).mp h)
    exact ⟨rfl, tokens, n, eq_ok_of_mapError htokens, hroom, hnests⟩
  · rintro ⟨rfl, tokens, n, htokens, hroom, hnests⟩
    refine ⟨tokens, by rw [htokens]; rfl, (bind_eq_range_iff inRange_distinct).mpr ?_⟩
    rw [← runList_eq _ (.range .depth) (Nat.le_refl _) (Nat.le_refl _)]
    exact depth_of_nestsIn hnests hroom

end Signature

end ViewContract
