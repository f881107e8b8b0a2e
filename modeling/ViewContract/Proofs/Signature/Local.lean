/-
ViewContract.Proofs.Signature.Local — a token is settled by its own characters.

Each kind of token is a few runs of characters, one behind the other, each as long as it can be. So
what stands behind a text changes nothing about the token that the text begins with, except that it
may go on over the end. And a token that ends in front of the end is the same token in the text by
itself: no kind that is tried before its own could match there and not in the whole.

  §1 counts of characters (`LocalCount`), and kinds of token (`LocalLength`).
  §2 numbers.
  §3 strings and names.
  §4 tokens of any kind (`tokenLength?_append`, `tokenLength?_of_append`).
-/
import ViewContract.Proofs.Signature.Pieces

namespace ViewContract.Signature

open Text

/-! ## 1. Counts -/

/-- A count of characters at the start of a text. With more text behind it is the same, or goes on
over the end. -/
structure LocalCount (count : Text → Nat) : Prop where
  le : ∀ t, count t ≤ t.length
  append : ∀ t s, count (t ++ s) = count t ∨ t.length < count (t ++ s)

/-- The length of a token at the start of a text. With more text behind the token is the same, or
goes on over the end. -/
structure LocalLength (length? : Text → Option Nat) : Prop where
  le : ∀ t n, length? t = some n → n ≤ t.length
  append : ∀ t s, length? (t ++ s) = length? t ∨ ∃ n, length? (t ++ s) = some n ∧ t.length < n

/-- In front of an empty text there is nothing to count. -/
theorem LocalCount.of_cons {count : Text → Nat} (hnil : count [] = 0)
    (hle : ∀ c t, count (c :: t) ≤ t.length + 1)
    (happend : ∀ c t s, count (c :: (t ++ s)) = count (c :: t) ∨
      t.length + 1 < count (c :: (t ++ s))) : LocalCount count := by
  constructor
  · intro t
    cases t with
    | nil => exact hnil.le
    | cons c t => exact hle c t
  · intro t s
    cases t with
    | nil =>
      rw [hnil]
      exact Nat.eq_zero_or_pos _
    | cons c t => exact happend c t s

theorem takeWhile_le (p : Char → Bool) (t : Text) : (t.takeWhile p).length ≤ t.length :=
  (List.takeWhile_sublist p).length_le

/-- A run that goes on over the end takes the whole text. -/
theorem takeWhile_append (p : Char → Bool) (t s : Text) :
    ((t ++ s).takeWhile p).length = (t.takeWhile p).length ∨
      (t.takeWhile p).length = t.length ∧ t.length < ((t ++ s).takeWhile p).length := by
  rw [List.takeWhile_append]
  split
  · rename_i hall
    cases hrest : s.takeWhile p with
    | nil => exact .inl (by rw [List.append_nil, hall])
    | cons c rest => exact .inr ⟨hall, by rw [List.length_append, List.length_cons]; omega⟩
  · exact .inl rfl

theorem local_takeWhile (p : Char → Bool) : LocalCount fun t => (t.takeWhile p).length :=
  ⟨takeWhile_le p, fun t s => (takeWhile_append p t s).imp_right And.right⟩

theorem digitRun_le (t : Text) : digitRun t ≤ t.length := by
  cases t with
  | nil => exact Nat.le_refl 0
  | cons c t =>
    have hrun := takeWhile_le (fun d => isDecimalDigit d || d = '_') t
    rw [digitRun, List.length_cons]
    split <;> omega

theorem digitRun_append (t s : Text) : digitRun (t ++ s) = digitRun t ∨
    digitRun t = t.length ∧ t.length < digitRun (t ++ s) := by
  cases t with
  | nil =>
    rcases Nat.eq_zero_or_pos (digitRun s) with hnone | hsome
    · exact .inl hnone
    · exact .inr ⟨rfl, hsome⟩
  | cons c t =>
    rw [List.cons_append, digitRun, digitRun]
    split
    · rcases takeWhile_append (fun d => isDecimalDigit d || d = '_') t s with hsame | ⟨hall, hover⟩
      · exact .inl (by rw [hsame])
      · exact .inr ⟨by rw [hall, List.length_cons]; omega, by rw [List.length_cons]; omega⟩
    · exact .inl rfl

theorem local_digitRun : LocalCount digitRun :=
  ⟨digitRun_le, fun t s => (digitRun_append t s).imp_right And.right⟩

/-- Behind the letter of an exponent there are a sign or none, which one character tells, and the
digits. -/
theorem exists_sign (e c : Char) : ∃ sign ≤ 1, ∀ rest, exponentLength (e :: c :: rest) =
    if (e = 'e' || e = 'E') && 0 < (((c :: rest).drop sign).takeWhile isDecimalDigit).length then
      1 + sign + (((c :: rest).drop sign).takeWhile isDecimalDigit).length
    else 0 := by
  refine ⟨if c = '+' || c = '-' then 1 else 0, by split <;> omega, ?_⟩
  intro rest
  rw [exponentLength]
  by_cases he : (e = 'e' || e = 'E') = true
  · simp [he]
  · simp [he]

theorem local_exponentLength : LocalCount exponentLength := by
  refine .of_cons rfl ?_ ?_
  · intro e t
    cases t with
    | nil => simp [exponentLength]
    | cons c rest =>
      obtain ⟨sign, hsign, hlength⟩ := exists_sign e c
      have hdigits := takeWhile_le isDecimalDigit ((c :: rest).drop sign)
      rw [List.length_drop] at hdigits
      rw [hlength]
      split
      · rw [List.length_cons] at hdigits ⊢
        omega
      · exact Nat.zero_le _
  · intro e t s
    cases t with
    | nil =>
      cases s with
      | nil => exact .inl rfl
      | cons c s =>
        obtain ⟨sign, -, hlength⟩ := exists_sign e c
        rw [List.nil_append, hlength]
        split
        · rename_i hcond
          obtain ⟨-, hcount⟩ := Bool.and_eq_true_iff.mp hcond
          have := of_decide_eq_true hcount
          exact .inr (by rw [List.length_nil]; omega)
        · exact .inl (by simp [exponentLength])
    | cons c rest =>
      obtain ⟨sign, hsign, hlength⟩ := exists_sign e c
      have hle : sign ≤ (c :: rest).length := hsign.trans (Nat.succ_le_succ (Nat.zero_le _))
      have hdrop : (c :: (rest ++ s)).drop sign = (c :: rest).drop sign ++ s :=
        List.drop_append_of_le_length hle
      rw [List.cons_append, hlength, hlength, hdrop]
      by_cases he : (e = 'e' || e = 'E') = true
      · rcases takeWhile_append isDecimalDigit ((c :: rest).drop sign) s with hsame | ⟨-, hover⟩
        · exact .inl (by rw [hsame])
        · have hcount : 0 < (((c :: rest).drop sign ++ s).takeWhile isDecimalDigit).length := by
            omega
          rw [List.length_drop] at hover
          refine .inr ?_
          rw [he, Bool.true_and, if_pos (decide_eq_true hcount)]
          omega
      · exact .inl (by simp [he])

/-- A count behind another. -/
theorem LocalCount.add {count other : Text → Nat} (h : LocalCount count) (h' : LocalCount other) :
    LocalCount fun t => count t + other (t.drop (count t)) := by
  constructor
  · intro t
    have hle := h.le t
    have hle' := h'.le (t.drop (count t))
    rw [List.length_drop] at hle'
    omega
  · intro t s
    rcases h.append t s with hsame | hover
    · rw [hsame, List.drop_append_of_le_length (h.le t)]
      rcases h'.append (t.drop (count t)) s with hsame' | hover'
      · exact .inl (by rw [hsame'])
      · rw [List.length_drop] at hover'
        exact .inr (by omega)
    · exact .inr (by omega)

/-- A count that is taken if another is not zero. -/
theorem LocalCount.guard {count whole : Text → Nat} (h : LocalCount count) (h' : LocalCount whole)
    (hle : ∀ t, count t ≤ whole t) : LocalCount fun t => if count t = 0 then 0 else whole t := by
  constructor
  · intro t
    split
    · exact Nat.zero_le _
    · exact h'.le t
  · intro t s
    rcases h.append t s with hsame | hover
    · rw [hsame]
      split
      · exact .inl rfl
      · exact h'.append t s
    · rw [if_neg (Nat.ne_zero_of_lt hover)]
      exact .inr (hover.trans_le (hle _))

/-- A character of one kind and a count behind it that is not zero; zero otherwise. -/
def led (first : Char → Bool) (count : Text → Nat) : Text → Nat
  | [] => 0
  | c :: rest => if first c then if count rest = 0 then 0 else 1 + count rest else 0

theorem LocalCount.led {count : Text → Nat} (h : LocalCount count) (first : Char → Bool) :
    LocalCount (led first count) := by
  refine .of_cons rfl ?_ ?_
  · intro c t
    have := h.le t
    rw [Signature.led]
    split
    · split <;> omega
    · exact Nat.zero_le _
  · intro c t s
    rw [Signature.led, Signature.led]
    split
    · rcases h.append t s with hsame | hover
      · exact .inl (by rw [hsame])
      · rw [if_neg (Nat.ne_zero_of_lt hover)]
        exact .inr (by omega)
    · exact .inl rfl

/-- A kind of token that is there if a count is not zero. -/
theorem LocalCount.localLength {count whole : Text → Nat} (h : LocalCount count)
    (h' : LocalCount whole) (hle : ∀ t, count t ≤ whole t) :
    LocalLength fun t => if count t = 0 then none else some (whole t) := by
  constructor
  · intro t n hlength
    split at hlength
    · cases hlength
    · obtain rfl := Option.some.inj hlength
      exact h'.le t
  · intro t s
    rcases h.append t s with hsame | hover
    · rw [hsame]
      split
      · exact .inl rfl
      · exact (h'.append t s).imp (congrArg some) fun hover => ⟨_, rfl, hover⟩
    · exact .inr ⟨_, if_neg (Nat.ne_zero_of_lt hover), hover.trans_le (hle _)⟩

theorem LocalCount.localLength_self {count : Text → Nat} (h : LocalCount count) :
    LocalLength fun t => if count t = 0 then none else some (count t) :=
  h.localLength h fun _ => Nat.le_refl _

/-- A kind that is tried behind another. -/
theorem LocalLength.orElse {length? other? : Text → Option Nat} (h : LocalLength length?)
    (h' : LocalLength other?) : LocalLength fun t => length? t <|> other? t := by
  constructor
  · intro t n hlength
    rcases (Option.orElse_eq_some _ _ _).mp hlength with hfirst | ⟨-, hsecond⟩
    · exact h.le t n hfirst
    · exact h'.le t n hsecond
  · intro t s
    rcases h.append t s with hsame | ⟨n, hover, hlt⟩
    · rw [hsame]
      cases length? t with
      | some n => exact .inl rfl
      | none => exact h'.append t s
    · exact .inr ⟨n, by rw [hover]; rfl, hlt⟩

/-! ## 2. Numbers -/

/-- A zero, a letter and digits behind it; zero if there are none. -/
def prefixedRun (letter : Char) (isDigit : Char → Bool) : Text → Nat :=
  led (· = '0') (led (·.toLower = letter) fun t =>
    (t.takeWhile fun d => isDigit d || d = '_').length)

theorem prefixedLength?_eq (letter : Char) (isDigit : Char → Bool) (t : Text) :
    prefixedLength? letter isDigit t = if prefixedRun letter isDigit t = 0 then none
      else some (prefixedRun letter isDigit t) := by
  rcases t with _ | ⟨c, _ | ⟨d, rest⟩⟩
  · rfl
  · simp [prefixedLength?, prefixedRun, led]
  · by_cases hc : c = '0'
    · subst hc
      by_cases hd : d.toLower = letter
      · simp only [prefixedLength?, prefixedRun, led, hd]
        generalize (rest.takeWhile fun d => isDigit d || d = '_').length = count
        cases count with
        | zero => simp
        | succ count => simp [Nat.add_left_comm]
      · simp [prefixedLength?, prefixedRun, led, hd]
    · simp [prefixedLength?, prefixedRun, led, hc]

theorem local_prefixedLength? (letter : Char) (isDigit : Char → Bool) :
    LocalLength (prefixedLength? letter isDigit) := by
  rw [show prefixedLength? letter isDigit = _ from funext (prefixedLength?_eq letter isDigit)]
  exact (((local_takeWhile _).led _).led _).localLength_self

/-- A point and digits behind it; zero if there are none. -/
def fractionLength : Text → Nat :=
  led (· = '.') digitRun

/-- The digits in front of a point, the point and the digits behind it. -/
def pointedRun (t : Text) : Nat :=
  digitRun t + fractionLength (t.drop (digitRun t))

theorem local_fractionLength : LocalCount fractionLength :=
  local_digitRun.led _

theorem pointedLength?_eq (t : Text) : pointedLength? t =
    if fractionLength (t.drop (digitRun t)) = 0 then none
    else some (pointedRun t + exponentLength (t.drop (pointedRun t))) := by
  rw [pointedLength?, pointedRun]
  cases hrest : t.drop (digitRun t) with
  | nil => rfl
  | cons c rest =>
    by_cases hc : c = '.'
    · subst hc
      by_cases hnone : digitRun rest = 0
      · simp [fractionLength, led, hnone]
      · simp [fractionLength, led, hnone, Nat.add_assoc]
    · simp [fractionLength, led, hc]

theorem local_pointedLength? : LocalLength pointedLength? := by
  have hrun : LocalCount pointedRun := local_digitRun.add local_fractionLength
  have hwhole : LocalCount fun t => pointedRun t + exponentLength (t.drop (pointedRun t)) :=
    hrun.add local_exponentLength
  constructor
  · intro t n h
    rw [pointedLength?_eq] at h
    split at h
    · cases h
    · obtain rfl := Option.some.inj h
      exact hwhole.le t
  · intro t s
    rw [pointedLength?_eq, pointedLength?_eq]
    rcases digitRun_append t s with hsame | ⟨hall, hover⟩
    · rcases hrun.append t s with hfraction | hfraction
      · have hnone : fractionLength ((t ++ s).drop (digitRun (t ++ s)))
            = fractionLength (t.drop (digitRun t)) := by
          rw [pointedRun, pointedRun] at hfraction
          omega
        rw [hnone]
        split
        · exact .inl rfl
        · exact (hwhole.append t s).imp (congrArg some) fun hover => ⟨_, rfl, hover⟩
      · have hle := digitRun_le t
        have hsome : fractionLength ((t ++ s).drop (digitRun (t ++ s))) ≠ 0 := by
          rw [pointedRun] at hfraction
          omega
        rw [if_neg hsome]
        exact .inr ⟨_, rfl, by omega⟩
    · -- the text is digits alone
      rw [List.drop_eq_nil_of_le hall.ge]
      split
      · exact .inl rfl
      · exact .inr ⟨_, rfl, by rw [pointedRun]; omega⟩

/-- The point behind digits; zero if there is none. -/
def pointLength : Text → Nat
  | '.' :: _ => 1
  | _ => 0

/-- Digits, a point behind them if there is one, and an exponent if there is one. -/
def wholeRun (t : Text) : Nat :=
  let length := digitRun t + pointLength (t.drop (digitRun t))
  length + exponentLength (t.drop length)

theorem local_pointLength : LocalCount pointLength := by
  refine .of_cons rfl ?_ ?_
  · intro c t
    rw [pointLength.eq_def]
    split
    · exact Nat.succ_le_succ (Nat.zero_le _)
    · exact Nat.zero_le _
  · intro c t s
    by_cases hc : c = '.'
    · subst hc
      exact .inl rfl
    · exact .inl (by simp [pointLength, hc])

theorem wholeLength?_eq (t : Text) :
    wholeLength? t = if digitRun t = 0 then none else some (wholeRun t) := by
  rw [wholeLength?, wholeRun]
  cases hrest : t.drop (digitRun t) with
  | nil => rfl
  | cons c rest =>
    by_cases hc : c = '.'
    · subst hc
      rfl
    · simp [hc, pointLength]

theorem local_wholeLength? : LocalLength wholeLength? := by
  have hwhole : LocalCount wholeRun :=
    (local_digitRun.add local_pointLength).add local_exponentLength
  have hle : ∀ t, digitRun t ≤ wholeRun t := by
    intro t
    rw [wholeRun, Nat.add_assoc]
    exact Nat.le_add_right _ _
  rw [show wholeLength? = _ from funext wholeLength?_eq]
  exact local_digitRun.localLength hwhole hle

theorem local_numberLength? : LocalLength numberLength? :=
  (local_prefixedLength? _ _).orElse <| (local_prefixedLength? _ _).orElse <|
    (local_prefixedLength? _ _).orElse <| local_pointedLength?.orElse local_wholeLength?

/-! ## 3. Strings and names -/

/-- A closed string is closed in front of anything. -/
theorem stringLength?_append {t : Text} {n : Nat} (h : stringLength? t = some n) (s : Text) :
    stringLength? (t ++ s) = some n := by
  obtain ⟨quote, inner, hquote, hinner, htake⟩ := exists_interior_of_stringLength? h
  have hcut : t = quote :: inner ++ [quote] ++ t.drop n := by rw [← htake, List.take_append_drop]
  have hlength := stringLength?_interior hquote hinner (t.drop n)
  rw [← hcut, h] at hlength
  rw [hcut, List.append_assoc, stringLength?_interior hquote hinner, ← hlength]

theorem local_stringLength? : LocalLength stringLength? := by
  constructor
  · intro t n h
    obtain ⟨quote, inner, hquote, hinner, htake⟩ := exists_interior_of_stringLength? h
    have hcut : t = quote :: inner ++ [quote] ++ t.drop n := by rw [← htake, List.take_append_drop]
    have hsame := stringLength?_interior hquote hinner (t.drop n)
    rw [← hcut, h, ← htake, List.length_take] at hsame
    have := Option.some.inj hsame
    omega
  · intro t s
    cases hwhole : stringLength? (t ++ s) with
    | none =>
      cases ht : stringLength? t with
      | none => exact .inl rfl
      | some n =>
        rw [stringLength?_append ht] at hwhole
        cases hwhole
    | some n =>
      by_cases hle : n ≤ t.length
      · obtain ⟨quote, inner, hquote, hinner, htake⟩ := exists_interior_of_stringLength? hwhole
        rw [List.take_append_of_le_length hle] at htake
        have hcut : t = quote :: inner ++ [quote] ++ t.drop n := by
          rw [← htake, List.take_append_drop]
        rw [hcut, stringLength?_interior hquote hinner, ← htake, List.length_take,
          Nat.min_eq_left hle]
        exact .inl rfl
      · exact .inr ⟨n, rfl, Nat.lt_of_not_le hle⟩

/-- The length of the identifier that a text begins with; zero if there is none. -/
def identifierLength (t : Text) : Nat :=
  (leadingIdentifier? t).elim 0 List.length

theorem identifierLength_cons (c : Char) (t : Text) : identifierLength (c :: t) =
    if isIdentifierStart c then (t.takeWhile isIdentifierPart).length + 1 else 0 := by
  rw [identifierLength, leadingIdentifier?]
  split <;> rfl

theorem leadingIdentifier?_map (length : Nat → Nat) (t : Text) :
    (leadingIdentifier? t).map (fun name => length name.length)
      = if identifierLength t = 0 then none else some (length (identifierLength t)) := by
  cases t with
  | nil => rfl
  | cons c t =>
    rw [identifierLength, leadingIdentifier?]
    split <;> rfl

theorem local_identifierLength : LocalCount identifierLength := by
  refine .of_cons rfl ?_ ?_
  · intro c t
    rw [identifierLength_cons]
    split
    · exact Nat.succ_le_succ (takeWhile_le _ t)
    · exact Nat.zero_le _
  · intro c t s
    rw [identifierLength_cons, identifierLength_cons]
    split
    · rcases takeWhile_append isIdentifierPart t s with hsame | ⟨-, hover⟩
      · exact .inl (by rw [hsame])
      · exact .inr (Nat.succ_lt_succ hover)
    · exact .inl rfl

theorem identifierLength_eq_zero {t : Text} (h : leadingIdentifier? t = none) :
    identifierLength t = 0 := by
  rw [identifierLength, h]
  rfl

theorem variableLength?_eq (t : Text) : variableLength? t =
    if led (· = '$') identifierLength t = 0 then none
    else some (led (· = '$') identifierLength t) := by
  cases t with
  | nil => rfl
  | cons c t =>
    by_cases hc : c = '$'
    · subst hc
      rw [variableLength?, leadingIdentifier?_map (· + 1)]
      by_cases hnone : identifierLength t = 0 <;> simp [led, hnone, Nat.add_comm]
    · rw [variableLength?_of_ne hc]
      simp [led, hc]

theorem local_variableLength? : LocalLength variableLength? := by
  rw [show variableLength? = _ from funext variableLength?_eq]
  exact (local_identifierLength.led _).localLength_self

/-- A separator and the name behind it, with which a path goes on. -/
def pathStep : Text → Nat :=
  led (fun c => c = '\\' || c = '.') identifierLength

theorem local_pathStep : LocalCount pathStep :=
  local_identifierLength.led _

theorem pathTailLength_succ (fuel : Nat) (t : Text) : pathTailLength (fuel + 1) t =
    if pathStep t = 0 then 0 else pathStep t + pathTailLength fuel (t.drop (pathStep t)) := by
  cases t with
  | nil => rfl
  | cons c t =>
    rw [pathTailLength, pathStep, led]
    split
    · cases hname : leadingIdentifier? t with
      | none =>
        rw [identifierLength_eq_zero hname]
        rfl
      | some name =>
        obtain ⟨hidentifier, -⟩ := isIdentifier_of_leadingIdentifier? hname
        obtain ⟨d, others, rfl, -⟩ := exists_of_isIdentifier hidentifier
        have hlength : identifierLength t = (d :: others).length := by
          rw [identifierLength, hname]
          rfl
        have hdrop : (c :: t).drop (1 + (d :: others).length) = t.drop (d :: others).length := by
          rw [Nat.add_comm, List.drop_succ_cons]
        have hsome : (d :: others).length ≠ 0 := Nat.succ_ne_zero _
        rw [hlength, if_neg hsome, if_neg (by omega), hdrop]
    · rfl

/-- A path goes on alike in front of more text, or over the end. How deep the scan may go does not
matter where its text is shorter. -/
theorem local_pathTailLength {fuel : Nat} {t : Text} (h : t.length ≤ fuel) :
    pathTailLength fuel t ≤ t.length ∧ ∀ s fuel', (t ++ s).length ≤ fuel' →
      (pathTailLength fuel' (t ++ s) = pathTailLength fuel t ∨
        t.length < pathTailLength fuel' (t ++ s)) := by
  induction fuel generalizing t with
  | zero =>
    obtain rfl := List.eq_nil_of_length_eq_zero (Nat.le_zero.mp h)
    refine ⟨Nat.le_refl 0, ?_⟩
    intro s fuel' _
    exact (Nat.eq_zero_or_pos (pathTailLength fuel' s)).imp_right id
  | succ fuel ih =>
    have hle := local_pathStep.le t
    have hnext : pathStep t ≠ 0 → (t.drop (pathStep t)).length ≤ fuel := by
      intro hstep
      rw [List.length_drop]
      omega
    rw [pathTailLength_succ]
    constructor
    · split
      · exact Nat.zero_le _
      · rename_i hstep
        have hrest := (ih (hnext hstep)).1
        rw [List.length_drop] at hrest
        omega
    · intro s fuel' hfuel
      cases fuel' with
      | zero =>
        have hnil := List.eq_nil_of_length_eq_zero (Nat.le_zero.mp hfuel)
        obtain ⟨rfl, rfl⟩ := List.append_eq_nil_iff.mp hnil
        exact .inl rfl
      | succ fuel' =>
        rw [pathTailLength_succ]
        rcases local_pathStep.append t s with hsame | hover
        · rw [hsame]
          split
          · exact .inl rfl
          · rename_i hstep
            have hfuel' : (t.drop (pathStep t) ++ s).length ≤ fuel' := by
              rw [List.length_append] at hfuel ⊢
              rw [List.length_drop]
              omega
            rw [List.drop_append_of_le_length hle]
            rcases (ih (hnext hstep)).2 s fuel' hfuel' with hsame' | hover
            · exact .inl (by rw [hsame'])
            · rw [List.length_drop] at hover
              exact .inr (by omega)
        · rw [if_neg (Nat.ne_zero_of_lt hover)]
          exact .inr (by omega)

/-- How far a text goes on with a path. -/
def pathRun (t : Text) : Nat :=
  pathTailLength t.length t

theorem pathTailLength_eq {fuel : Nat} {t : Text} (h : t.length ≤ fuel) :
    pathTailLength fuel t = pathRun t := by
  obtain ⟨hle, -⟩ := local_pathTailLength h
  have hsame := (local_pathTailLength (Nat.le_refl t.length)).2 [] fuel (by rwa [List.append_nil])
  rw [List.append_nil] at hsame
  rcases hsame with hsame | hover
  · exact hsame
  · omega

theorem local_pathRun : LocalCount pathRun := by
  constructor
  · intro t
    exact (local_pathTailLength (Nat.le_refl t.length)).1
  · intro t s
    exact (local_pathTailLength (Nat.le_refl t.length)).2 s _ (Nat.le_refl _)

/-- A name and the path behind it; zero if there is none. -/
def namesRun (t : Text) : Nat :=
  if identifierLength t = 0 then 0
  else identifierLength t + pathRun (t.drop (identifierLength t))

theorem local_namesRun : LocalCount namesRun :=
  local_identifierLength.guard (local_identifierLength.add local_pathRun) fun _ =>
    Nat.le_add_right _ _

theorem leadingIdentifier?_names (lead : Nat) (t : Text) :
    (leadingIdentifier? t).map (fun name =>
        lead + name.length + pathTailLength t.length (t.drop name.length))
      = if namesRun t = 0 then none else some (lead + namesRun t) := by
  have hpath : pathTailLength t.length (t.drop (identifierLength t))
      = pathRun (t.drop (identifierLength t)) :=
    pathTailLength_eq (by rw [List.length_drop]; exact Nat.sub_le _ _)
  rw [leadingIdentifier?_map fun n => lead + n + pathTailLength t.length (t.drop n), hpath,
    namesRun]
  split
  · rfl
  · rw [if_neg (by omega), Nat.add_assoc]

theorem classNameLength?_eq (t : Text) : classNameLength? t =
    ((if led (· = '\\') namesRun t = 0 then none else some (led (· = '\\') namesRun t)) <|>
      if namesRun t = 0 then none else some (namesRun t)) := by
  cases t with
  | nil => rfl
  | cons c t =>
    by_cases hc : c = '\\'
    · subst hc
      have hnone : namesRun ('\\' :: t) = 0 := by
        simp [namesRun, identifierLength_cons, show isIdentifierStart '\\' = false by decide]
      rw [classNameLength?_backslash, leadingIdentifier?_names, hnone]
      by_cases hzero : namesRun t = 0 <;> simp [led, hzero]
    · have h := leadingIdentifier?_names 0 (c :: t)
      simp only [Nat.zero_add] at h
      rw [classNameLength?_of_head_ne (by simpa using hc), h]
      simp [led, hc]

theorem local_classNameLength? : LocalLength classNameLength? := by
  rw [show classNameLength? = _ from funext classNameLength?_eq]
  exact (local_namesRun.led _).localLength_self.orElse local_namesRun.localLength_self

/-! ## 4. Tokens -/

/-- A kind with one text. -/
theorem TakesOnly.localLength {length? : Text → Option Nat} {text : Text}
    (hfixed : TakesOnly length? text) : LocalLength length? := by
  constructor
  · intro t n h
    rw [hfixed.length_eq h]
    exact (hfixed.begins h).length_le
  · intro t s
    by_cases ht : text <+: t
    · obtain ⟨rest, rfl⟩ := ht
      rw [List.append_assoc, hfixed.self, hfixed.self]
      exact .inl rfl
    · have hnone : length? t = none := by
        cases h : length? t with
        | none => rfl
        | some n => exact absurd (hfixed.begins h) ht
      cases hwhole : length? (t ++ s) with
      | none => exact .inl hnone.symm
      | some n =>
        refine .inr ⟨n, rfl, Nat.lt_of_not_le fun hle => ht ?_⟩
        rw [hfixed.length_eq hwhole] at hle
        exact List.prefix_of_prefix_length_le (hfixed.begins hwhole) (List.prefix_append t s) hle

theorem local_punctuationLength? : LocalLength punctuationLength? := by
  constructor
  · intro t n h
    rw [punctuationLength?.eq_def] at h
    split at h
    · split at h
      · obtain rfl := Option.some.inj h
        exact Nat.succ_le_succ (Nat.zero_le _)
      · cases h
    · cases h
  · intro t s
    cases t with
    | cons c t => exact .inl rfl
    | nil =>
      cases s with
      | nil => exact .inl rfl
      | cons c s =>
        rw [List.nil_append, punctuationLength?]
        split
        · exact .inr ⟨1, rfl, Nat.one_pos⟩
        · exact .inl rfl

theorem local_matchers : ∀ m ∈ matchers, LocalLength m.2 := by
  intro m hm
  simp only [matchers, List.mem_cons, List.not_mem_nil, or_false] at hm
  rcases hm with rfl | rfl | rfl | rfl | rfl | rfl | rfl | rfl
  · exact local_variableLength?
  · exact takesOnly_dollar.localLength
  · exact local_numberLength?
  · exact local_stringLength?
  · exact local_classNameLength?
  · exact takesOnly_doubleColon.localLength
  · exact takesOnly_arrow.localLength
  · exact local_punctuationLength?

/-- A token is no longer than the text that it begins. -/
theorem tokenLength?_le {t : Text} {kind : TokenKind} {n : Nat}
    (h : tokenLength? t = some (kind, n)) : n ≤ t.length := by
  obtain ⟨length?, hmem, hlength⟩ := exists_matcher_of_tokenLength? h
  exact (local_matchers _ hmem).le t n hlength

/-- The first of several kinds that matches. -/
theorem local_findSome? {ms : List (TokenKind × (Text → Option Nat))}
    (h : ∀ m ∈ ms, LocalLength m.2) (t s : Text) :
    (ms.findSome? fun m => (m.2 (t ++ s)).map (m.1, ·))
        = (ms.findSome? fun m => (m.2 t).map (m.1, ·)) ∨
      ∃ kind n, (ms.findSome? fun m => (m.2 (t ++ s)).map (m.1, ·)) = some (kind, n) ∧
        t.length < n := by
  induction ms with
  | nil => exact .inl rfl
  | cons m ms ih =>
    rw [List.forall_mem_cons] at h
    rcases h.1.append t s with hsame | ⟨n, hover, hlt⟩
    · cases hm : m.2 t with
      | none => simpa [hsame, hm] using ih h.2
      | some n => exact .inl (by simp [hsame, hm])
    · exact .inr ⟨m.1, n, by simp [hover], hlt⟩

/-- With more text behind, a text begins with the same token, or with one that goes on over its
end. -/
theorem tokenLength?_append (t s : Text) : tokenLength? (t ++ s) = tokenLength? t ∨
    ∃ kind n, tokenLength? (t ++ s) = some (kind, n) ∧ t.length < n :=
  local_findSome? local_matchers t s

/-- A token that ends in a text is the token that the text begins with by itself. -/
theorem tokenLength?_of_append {t s : Text} {kind : TokenKind} {n : Nat}
    (h : tokenLength? (t ++ s) = some (kind, n)) (hle : n ≤ t.length) :
    tokenLength? t = some (kind, n) := by
  rcases tokenLength?_append t s with hsame | ⟨kind', m, hover, hlt⟩
  · rwa [← hsame]
  · rw [h] at hover
    obtain ⟨-, rfl⟩ := Prod.mk.inj (Option.some.inj hover)
    omega

end ViewContract.Signature
