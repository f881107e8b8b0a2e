/-
ViewContract.Proofs.Signature.Reading — the readers of a default, step by step.

The readers of a default call each other, and the items of an array are a loop around them. What
they keep to is always shown in the same way: by the steps of each, for the values that it can
answer, the errors that it can refuse with and the tokens that it leaves. So the readers are gone
through once, and each invariant is what it says of numbers, strings and refusals:

  §1 steps that succeed, and readings that give a result or an error (`Gives`).
  §2 the calls of the readers (`Reading`), and one step of each.
  §3 what a step keeps to, and so all the readers (`Reading.gives_read`).
-/
import ViewContract.Signature.Parameter
import Mathlib.Data.List.Infix

namespace ViewContract

open Text

/-! ## 1. Steps -/

/-- A step that succeeds consists of two that do. -/
theorem exists_of_bind_eq_ok {ε α β : Type} {x : Except ε α} {f : α → Except ε β} {b : β}
    (h : x >>= f = .ok b) : ∃ a, x = .ok a ∧ f a = .ok b := by
  cases x with
  | error e => exact nomatch h
  | ok a => exact ⟨a, rfl, h⟩

/-- A reading that succeeds wherever another does, with the same result, can stand in for it. -/
theorem map_eq_ok_of_imp {ε α β : Type} {f : α → β} {x x' : Except ε α} {b : β}
    (h : f <$> x = .ok b) (hx : ∀ {a}, x = .ok a → x' = .ok a) : f <$> x' = .ok b := by
  cases x with
  | error e => exact nomatch h
  | ok a =>
    rw [hx rfl]
    exact h

/-- A step that fails is the first or the second of two. -/
theorem error_of_bind {ε α β : Type} {x : Except ε α} {f : α → Except ε β} {e : ε}
    (h : x >>= f = .error e) : x = .error e ∨ ∃ a, x = .ok a ∧ f a = .error e := by
  cases x with
  | error e' => exact .inl (congrArg _ (Except.error.inj h))
  | ok a => exact .inr ⟨a, rfl, h⟩

theorem eq_ok_of_mapError {ε ε' α : Type} {x : Except ε α} {f : ε → ε'} {a : α}
    (h : x.mapError f = .ok a) : x = .ok a := by
  cases x with
  | error e => exact nomatch h
  | ok b => exact congrArg Except.ok (Except.ok.inj h)

/-- What follows a step needs to agree only on its result. -/
theorem bind_congr_of_ok {ε α β : Type} {x : Except ε α} {f g : α → Except ε β}
    (h : ∀ a, x = .ok a → f a = g a) : x >>= f = x >>= g := by
  cases x with
  | error e => rfl
  | ok a => exact h a rfl

/-- A reading gives a result with `P`, or an error with `E`. -/
def Gives {α : Type} (E : BodyError → Prop) (P : α → Prop) : Except BodyError α → Prop
  | .ok a => P a
  | .error e => E e

section gives

variable {α β : Type} {E : BodyError → Prop} {P : α → Prop} {Q : β → Prop}

theorem Gives.imp {P' : α → Prop} {x : Except BodyError α} (h : Gives E P x)
    (hP : ∀ a, P a → P' a) : Gives E P' x := by
  cases x with
  | ok a => exact hP a h
  | error e => exact h

/-- A step after a reading, which may know where its input comes from. -/
theorem Gives.bind_of_ok {x : Except BodyError α} {f : α → Except BodyError β} (hx : Gives E P x)
    (hf : ∀ a, x = .ok a → P a → Gives E Q (f a)) : Gives E Q (x >>= f) := by
  cases x with
  | ok a => exact hf a rfl hx
  | error e => exact hx

theorem Gives.bind {x : Except BodyError α} {f : α → Except BodyError β} (hx : Gives E P x)
    (hf : ∀ a, P a → Gives E Q (f a)) : Gives E Q (x >>= f) :=
  hx.bind_of_ok fun a _ => hf a

/-- An error of another kind is one of the body. -/
theorem gives_mapError {ε : Type} {x : Except ε α} {f : ε → BodyError} (hP : ∀ a, x = .ok a → P a)
    (hE : ∀ e, x = .error e → E (f e)) : Gives E P (x.mapError f) := by
  cases x with
  | ok a => exact hP a rfl
  | error e => exact hE e rfl

end gives

namespace Signature

/-! ## 2. Calls and steps -/

/-- A call of a reader. -/
inductive Reading where
  /-- A default. -/
  | default (tokens : List Token)
  /-- A default that begins with a name, which is read already. -/
  | named (name : Text) (tokens : List Token)
  /-- The items of an array after those already read. -/
  | array (closer : Char) (items : List Value) (tokens : List Token)

/-- What a reader answers: a value and the tokens behind it, or why there is none. -/
abbrev Answer :=
  Except BodyError (Value × List Token)

namespace Reading

/-- The tokens from where the call is made. -/
def tokens : Reading → List Token
  | .default tokens | .named _ tokens | .array _ _ tokens => tokens

/-- The answer of the reader that counts its steps, with room for further calls on the stack. -/
def read (stop fuel room : Nat) : Reading → Answer
  | .default tokens => readDefault stop room fuel tokens
  | .named name tokens => readNamed stop room fuel name tokens
  | .array closer items tokens => readItems stop room closer fuel items tokens

/-- One step of a reader, where `ask` answers its calls with the room that is left to them. -/
def step (stop : Nat) (ask : Nat → Reading → Answer) (room : Nat) : Reading → Answer
  | .default [] => unexpected stop .value []
  | .default (token :: rest) =>
    match token.kind with
    | .punctuation =>
      if token.text = ['+'] || token.text = ['-'] then do
        let (digits, rest) ← expectKind stop .number .number rest
        let number ← readNumber digits
        pure (valueOfNumber (if token.text = ['-'] then number.neg else number), rest)
      else if token.text = ['['] then deeper room fun room => ask room (.array ']' [] rest)
      else unexpected stop .value (token :: rest)
    | .number => do
      let number ← readNumber token
      pure (valueOfNumber number, rest)
    | .string => do
      let text ← (unquote (some token.position) token.text).mapError .grammar
      pure (.string text, rest)
    | .name => deeper room fun room => ask room (.named token.text rest)
    | _ => unexpected stop .value (token :: rest)
  | .named name tokens =>
    let word := lower name
    if word = "null".toList then .ok (.null, tokens)
    else if word = "true".toList then .ok (.bool true, tokens)
    else if word = "false".toList then .ok (.bool false, tokens)
    else if word = "array".toList && startsWith '(' tokens then
      deeper room fun room => ask room (.array ')' [] (tokens.drop 1))
    else if word = "new".toList then do
      let (ofClass, rest) ← expectKind stop .name .className tokens
      let value := Value.expression ("new ".toList ++ ofClass.text)
      if startsWith '(' rest then do
        let (_, rest) ← deeper room fun room => ask room (.array ')' [] (rest.drop 1))
        pure (value, rest)
      else pure (value, rest)
    else match tokens with
      | ⟨.doubleColon, _, _⟩ :: rest => do
        let (member, rest) ← expectKind stop .name .constantName rest
        pure (.expression ("constant ".toList ++ name ++ "::".toList ++ member.text), rest)
      | _ => .ok (.expression ("constant ".toList ++ name), tokens)
  | .array closer items tokens =>
    if startsWith closer tokens then .ok (.list items.reverse, tokens.drop 1)
    else do
      let (item, rest) ← deeper room fun room => ask room (.default tokens)
      let (item, rest) ← match rest with
        | ⟨.arrow, _, _⟩ :: rest => do
          let (value, rest) ← deeper room fun room => ask room (.default rest)
          pure (Value.tuple [item, value], rest)
        | _ => pure (item, rest)
      if startsWith closer rest then .ok (.list (item :: items).reverse, rest.drop 1)
      else if startsWith ',' rest then ask room (.array closer (item :: items) (rest.drop 1))
      else unexpected stop (.commaOr closer) rest

/-- How an array goes on behind an item: it ends, or further items follow a comma. -/
def afterItem (stop : Nat) (ask : Nat → Reading → Answer) (room : Nat) (closer : Char)
    (items : List Value) (tokens : List Token) : Answer :=
  if startsWith closer tokens then .ok (.list items.reverse, tokens.drop 1)
  else if startsWith ',' tokens then ask room (.array closer items (tokens.drop 1))
  else unexpected stop (.commaOr closer) tokens

/-- An array ends, or an item is read, and behind an arrow the value that it is the key of. -/
theorem step_array (stop : Nat) (ask : Nat → Reading → Answer) (room : Nat) (closer : Char)
    (items : List Value) (tokens : List Token) : step stop ask room (.array closer items tokens) =
      if startsWith closer tokens then .ok (.list items.reverse, tokens.drop 1)
      else (do
        let (item, rest) ← deeper room fun room => ask room (.default tokens)
        match rest with
        | ⟨.arrow, _, _⟩ :: rest => do
          let (value, rest) ← deeper room fun room => ask room (.default rest)
          afterItem stop ask room closer (.tuple [item, value] :: items) rest
        | _ => afterItem stop ask room closer (item :: items) rest) := by
  rw [step]
  split <;> rfl

/-- With a step left the reader takes it. -/
theorem read_succ (stop fuel room : Nat) (r : Reading) :
    r.read stop (fuel + 1) room = r.step stop (read stop fuel) room := by
  cases r with
  | default tokens =>
    cases tokens with
    | nil =>
      rw [read, readDefault.eq_def]
      rfl
    | cons token rest =>
      rw [read, readDefault.eq_def]
      rfl
  | named name tokens =>
    rw [read, readNamed.eq_def]
    rfl
  | array closer items tokens =>
    rw [read, readItems.eq_def]
    rfl

end Reading

theorem exists_of_deeper_eq_ok {α : Type} {room : Nat} {read : Nat → Except BodyError α} {a : α}
    (h : deeper room read = .ok a) : ∃ inner, room = inner + 1 ∧ read inner = .ok a := by
  cases room with
  | zero => exact nomatch h
  | succ inner => exact ⟨inner, rfl, h⟩

theorem suffix_of_expectKind {stop : Nat} {kind : TokenKind} {what : Expected}
    {tokens rest : List Token} {token : Token}
    (h : expectKind stop kind what tokens = .ok (token, rest)) :
    tokens = token :: rest ∧ token.kind = kind := by
  cases tokens with
  | nil => exact nomatch h
  | cons t tokens =>
    rw [expectKind] at h
    split at h
    · obtain ⟨rfl, rfl⟩ := Prod.ext_iff.mp (Except.ok.inj h)
      exact ⟨rfl, ‹_›⟩
    · exact nomatch h

theorem unexpected_ne_ok {α : Type} {stop : Nat} {what : Expected} {tokens : List Token} {a : α} :
    unexpected stop what tokens ≠ .ok a := by
  cases tokens <;> exact nofun

/-! ## 3. Invariants -/

/-- What is kept to by the readers of a default: with `T` of the tokens, they answer values with `V`
and refuse with errors with `E`, if this is so of numbers, strings and unexpected tokens, and of a
stack that is full. -/
structure Kept (stop : Nat) (T : Token → Prop) (V : Value → Prop) (E : BodyError → Prop) :
    Prop where
  unexpected : ∀ {α : Type} (what : Expected) (tokens : List Token), (∀ token ∈ tokens, T token) →
    Gives (α := α) E (fun _ => False) (unexpected stop what tokens)
  depth : E (.range .depth)
  number : ∀ token, T token →
    Gives E (fun number => V (valueOfNumber number) ∧ V (valueOfNumber number.neg))
      (readNumber token)
  string : ∀ token, T token → Gives E (fun text => V (.string text))
    ((unquote (some token.position) token.text).mapError .grammar)
  null : V .null
  bool : ∀ b, V (.bool b)
  list : ∀ items, V (.list items)
  expression : ∀ description, V (.expression description)

section kept

variable {stop : Nat} {T : Token → Prop} {V : Value → Prop} {E : BodyError → Prop}

theorem Kept.expectKind (hkept : Kept stop T V E) {kind : TokenKind} {what : Expected}
    {tokens : List Token} (h : ∀ token ∈ tokens, T token) :
    Gives E (fun read => tokens = read.1 :: read.2) (expectKind stop kind what tokens) := by
  rw [Signature.expectKind.eq_def]
  split
  · split
    · exact rfl
    · exact (hkept.unexpected what _ h).imp fun _ => False.elim
  · exact (hkept.unexpected what _ h).imp fun _ => False.elim

namespace Reading

/-- An answer keeps to `V` and `E`, and an end of the tokens is left. -/
def Keeps (V : Value → Prop) (E : BodyError → Prop) (tokens : List Token) : Answer → Prop :=
  Gives E fun read => V read.1 ∧ read.2 <:+ tokens

theorem Keeps.of_suffix {tokens left : List Token} {answer : Answer} (h : Keeps V E left answer)
    (hsuffix : left <:+ tokens) : Keeps V E tokens answer :=
  Gives.imp h fun _ hread => ⟨hread.1, hread.2.trans hsuffix⟩

theorem keeps_unexpected (hkept : Kept stop T V E) {what : Expected} {left : List Token}
    (h : ∀ token ∈ left, T token) (tokens : List Token) :
    Keeps V E tokens (unexpected stop what left) :=
  (hkept.unexpected what left h).imp fun _ => False.elim

section step

variable (hkept : Kept stop T V E) {ask : Nat → Reading → Answer}
  (hask : ∀ room, ∀ r : Reading, (∀ token ∈ r.tokens, T token) →
    Keeps V E r.tokens (ask room r))

include hask

/-- A call for an end of the tokens. -/
theorem keeps_ask {tokens : List Token} (h : ∀ token ∈ tokens, T token) (room : Nat) (r : Reading)
    (hsuffix : r.tokens <:+ tokens) : Keeps V E tokens (ask room r) :=
  (hask room r fun token htoken => h token (hsuffix.subset htoken)).of_suffix hsuffix

include hkept

/-- The same, one call further down the stack. -/
theorem keeps_deeper {tokens : List Token} (h : ∀ token ∈ tokens, T token) (room : Nat)
    (r : Reading) (hsuffix : r.tokens <:+ tokens) :
    Keeps V E tokens (deeper room fun room => ask room r) := by
  cases room with
  | zero => exact hkept.depth
  | succ room => exact keeps_ask hask h room r hsuffix

variable (room : Nat)

theorem keeps_default {tokens : List Token} (h : ∀ token ∈ tokens, T token) :
    Keeps V E tokens (step stop ask room (.default tokens)) := by
  cases tokens with
  | nil => exact keeps_unexpected hkept h _
  | cons token rest =>
    have htail : rest <:+ token :: rest := List.suffix_cons token rest
    have hrest : ∀ token ∈ rest, T token := fun t ht => h t (htail.subset ht)
    rw [step]
    split
    · split
      · -- a number with a sign
        refine (hkept.expectKind hrest).bind fun read hdigits => ?_
        obtain ⟨digits, after⟩ := read
        obtain rfl : rest = digits :: after := hdigits
        refine (hkept.number digits (hrest digits List.mem_cons_self)).bind
          fun number hnumber => ?_
        refine ⟨?_, (List.suffix_cons digits after).trans htail⟩
        dsimp only
        split
        · exact hnumber.2
        · exact hnumber.1
      · split
        · exact keeps_deeper hkept hask h room (.array ']' [] rest) htail
        · exact keeps_unexpected hkept h _
    · exact (hkept.number token (h token List.mem_cons_self)).bind
        fun _ hnumber => ⟨hnumber.1, htail⟩
    · exact (hkept.string token (h token List.mem_cons_self)).bind
        fun _ htext => ⟨htext, htail⟩
    · exact keeps_deeper hkept hask h room (.named token.text rest) htail
    · exact keeps_unexpected hkept h _

theorem keeps_named (name : Text) {tokens : List Token} (h : ∀ token ∈ tokens, T token) :
    Keeps V E tokens (step stop ask room (.named name tokens)) := by
  have hsame : tokens <:+ tokens := List.suffix_refl tokens
  simp only [step]
  split
  · exact ⟨hkept.null, hsame⟩
  · split
    · exact ⟨hkept.bool true, hsame⟩
    · split
      · exact ⟨hkept.bool false, hsame⟩
      · split
        · exact keeps_deeper hkept hask h room (.array ')' [] (tokens.drop 1))
            (List.drop_suffix 1 tokens)
        · split
          · -- a construction, with its arguments read and dropped
            refine (hkept.expectKind h).bind fun read hclass => ?_
            obtain ⟨ofClass, rest⟩ := read
            obtain rfl : tokens = ofClass :: rest := hclass
            have htail : rest <:+ ofClass :: rest := List.suffix_cons ofClass rest
            dsimp only
            split
            · exact (keeps_deeper hkept hask h room (.array ')' [] (rest.drop 1))
                ((List.drop_suffix 1 rest).trans htail)).bind
                  fun read hread => ⟨hkept.expression _, hread.2⟩
            · exact ⟨hkept.expression _, htail⟩
          · split
            · rename_i text position rest _
              have htail := List.suffix_cons (⟨.doubleColon, text, position⟩ : Token) rest
              refine (hkept.expectKind fun t ht => h t (htail.subset ht)).bind
                fun read hmember => ?_
              obtain ⟨member, after⟩ := read
              obtain rfl : rest = member :: after := hmember
              exact ⟨hkept.expression _, (List.suffix_cons member after).trans htail⟩
            · exact ⟨hkept.expression _, hsame⟩

theorem keeps_afterItem (closer : Char) (items : List Value) {tokens left : List Token}
    (h : ∀ token ∈ tokens, T token) (hsuffix : left <:+ tokens) :
    Keeps V E tokens (afterItem stop ask room closer items left) := by
  have hdrop := (List.drop_suffix 1 left).trans hsuffix
  rw [afterItem]
  split
  · exact ⟨hkept.list _, hdrop⟩
  · split
    · exact keeps_ask hask h room (.array closer items (left.drop 1)) hdrop
    · exact keeps_unexpected hkept (fun t ht => h t (hsuffix.subset ht)) _

theorem keeps_array (closer : Char) (items : List Value) {tokens : List Token}
    (h : ∀ token ∈ tokens, T token) :
    Keeps V E tokens (step stop ask room (.array closer items tokens)) := by
  rw [step_array]
  split
  · exact ⟨hkept.list _, List.drop_suffix 1 tokens⟩
  · refine (keeps_deeper hkept hask h room (.default tokens) (List.suffix_refl tokens)).bind
      fun read hitem => ?_
    obtain ⟨item, after⟩ := read
    dsimp only
    split
    · -- the item is a key, and its value is read, too
      rename_i rest
      have hrest : rest <:+ tokens := (List.suffix_cons _ rest).trans hitem.2
      refine (keeps_deeper hkept hask h room (.default rest) hrest).bind fun read hvalue => ?_
      exact keeps_afterItem hkept hask room closer _ h hvalue.2
    · exact keeps_afterItem hkept hask room closer _ h hitem.2

/-- A step keeps to what its calls keep to. -/
theorem keeps_step {r : Reading} (h : ∀ token ∈ r.tokens, T token) :
    Keeps V E r.tokens (r.step stop ask room) := by
  cases r with
  | default tokens => exact keeps_default hkept hask room h
  | named name tokens => exact keeps_named hkept hask room name h
  | array closer items tokens => exact keeps_array hkept hask room closer items h

end step

/-- **Whatever default is read, the readers keep to it**, however many steps they may take and
whatever room they have. -/
theorem gives_read (hkept : Kept stop T V E) {r : Reading} (h : ∀ token ∈ r.tokens, T token)
    (fuel room : Nat) :
    Gives E (fun read => V read.1 ∧ read.2 <:+ r.tokens) (r.read stop fuel room) := by
  induction fuel generalizing r room with
  | zero =>
    cases r with
    | default tokens =>
      rw [read, readDefault.eq_def]
      exact keeps_unexpected hkept h _
    | named name tokens =>
      rw [read, readNamed]
      exact keeps_unexpected hkept h _
    | array closer items tokens =>
      rw [read, readItems]
      exact keeps_unexpected hkept h _
  | succ fuel ih =>
    rw [read_succ]
    exact keeps_step hkept (fun room _ hr => ih hr room) room h

end Reading

end kept

end Signature

end ViewContract
