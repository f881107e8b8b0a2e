/-
ViewContract.Proofs.Signature.Parameter — parameters read from their lexemes.

The readers look at the kind and the text of a token, and at its position only for a fault. So
what they read from tokens is said by the lexemes of the tokens:

  §1 type names and variables.
  §2 defaults. `Writes` says how a literal may be written, and each way is read back.
  §3 parameters (`readParameter_required`, `readParameter_optional`).
  §4 lists of parameters (`readParameters_listed`).
-/
import ViewContract.Proofs.Number.Grouped
import ViewContract.Proofs.Signature.Lexeme
import ViewContract.Signature.Parameter

namespace ViewContract.Signature

open ViewContract.Text

variable (stop : Nat) {tokens : List Token} {ls : List Lexeme}

/-- The first token of a row of lexemes. -/
theorem exists_token {l : Lexeme} (h : tokens.map Token.lexeme = l :: ls) :
    ∃ position rest, tokens = ⟨l.kind, l.text, position⟩ :: rest ∧ rest.map Token.lexeme = ls := by
  obtain ⟨token, rest, rfl, rfl, rfl⟩ := List.map_eq_cons_iff.mp h
  exact ⟨token.position, rest, rfl, rfl⟩

theorem startsWith_eq (c : Char) (h : tokens.map Token.lexeme = ls) :
    startsWith c tokens = decide (ls.head? = some (.mark c)) := by
  subst h
  cases tokens with
  | nil => simp [startsWith]
  | cons token rest => simp [startsWith, Token.lexeme, Lexeme.mark]

theorem expectKind_lexeme {kind : TokenKind} {text : Text} (what : Expected)
    (h : tokens.map Token.lexeme = ⟨kind, text⟩ :: ls) : ∃ position rest,
      rest.map Token.lexeme = ls ∧
        expectKind stop kind what tokens = .ok (⟨kind, text, position⟩, rest) := by
  obtain ⟨position, rest, rfl, hrest⟩ := exists_token h
  exact ⟨position, rest, hrest, if_pos rfl⟩

/-! ## 1. Type names and variables -/

/-- A question mark and a type name in front of a variable. -/
theorem readTypeName_written {nullable : Bool} {type : Option Text} {name : Text}
    (htyped : nullable = true → type ≠ none)
    (h : tokens.map Token.lexeme = (if nullable then [.mark '?'] else []) ++
      type.toList.map (⟨.name, ·⟩) ++ .ofName name :: ls) :
    ∃ rest, rest.map Token.lexeme = .ofName name :: ls ∧
      readTypeName stop tokens
        = .ok ((if nullable then ['?'] else []) ++ type.getD [], rest) := by
  cases type with
  | none =>
    obtain rfl : nullable = false := by simpa using htyped
    obtain ⟨position, rest, rfl, hrest⟩ := exists_token h
    exact ⟨_, h, by simp [readTypeName, startsWith, Lexeme.ofName]⟩
  | some type =>
    cases nullable with
    | false =>
      obtain ⟨position, rest, rfl, hrest⟩ := exists_token h
      exact ⟨rest, hrest, by simp [readTypeName, startsWith]⟩
    | true =>
      obtain ⟨position, rest, rfl, hrest⟩ := exists_token h
      obtain ⟨position', after, hafter, hname⟩ :=
        expectKind_lexeme stop .typeName hrest
      exact ⟨after, hafter, by simp [readTypeName, startsWith, Lexeme.mark, hname]⟩

theorem readVariable_written {name : Text} (h : tokens.map Token.lexeme = .ofName name :: ls) :
    ∃ rest, rest.map Token.lexeme = ls ∧ readVariable stop tokens = .ok (name, rest) := by
  obtain ⟨position, rest, rfl, hrest⟩ := exists_token h
  exact ⟨rest, hrest, by simp [readVariable, expectKind, Lexeme.ofName]⟩

/-- A class name means a kind or a class, and the question mark before it admits null. -/
theorem typingOfName_written {name : Text} (hname : ClassName name) (nullable : Bool) :
    typingOfName ((if nullable then ['?'] else []) ++ name)
      = .ok { type := some (TypeRef.ofName name), nullable } := by
  have hpath : TypeRef.ofPath (normalizePath name) = .ok (.ofClass (normalizePath name)) := by
    rw [TypeRef.ofPath, isClassPath, uptoLineFeed, isDottedPath_normalizePath hname, Bool.true_or,
      if_pos rfl]
  obtain ⟨c, rest, rfl, hc⟩ := hname.exists_head
  have hmark : c ≠ '?' := by
    rcases hc with rfl | hstart
    · decide
    · exact ne_of_isIdentifierPart (isIdentifierPart_of_start hstart) (by decide)
  cases hkind : Kind.ofName? (c :: rest) <;> cases nullable <;>
    simp [typingOfName, TypeRef.ofName, hmark, hkind, hpath]

/-! ## 2. Defaults -/

/-- A literal as it can be written, with the value that it stands for: null, an integer in
decimal with an optional minus, or a quoted text. -/
inductive Spells : List Lexeme → Literal → Prop where
  | null : Spells [⟨.name, "null".toList⟩] .null
  | int (negative : Bool) (n : Nat) (hn : Number.decimalLength n ≤ Number.digitLimit) :
      Spells ((if negative then [.mark '-'] else []) ++ [⟨.number, Nat.toDigits 10 n⟩])
        (.int (if negative then -n else n))
  | string (t : Text) : Spells [⟨.string, quoted t⟩] (.string t)

theorem spells_of_listable {l : Literal} (h : l.Listable) : Spells l.lexemes l := by
  cases l with
  | null => exact .null
  | string t => exact .string t
  | float x => exact absurd h id
  | int n =>
    have hspells := Spells.int (decide (n < 0)) n.natAbs h
    have hvalue : (if decide (n < 0) then -(n.natAbs : ℤ) else n.natAbs) = n := by
      split
      all_goals
        rename_i hn
        simp only [decide_eq_true_eq] at hn
        omega
    have hlexemes : (Literal.int n).lexemes = (if decide (n < 0) then [.mark '-'] else []) ++
        [⟨.number, Nat.toDigits 10 n.natAbs⟩] := by
      obtain ⟨c, rest, hcut, hc⟩ := (Number.unsigned_digits n.natAbs).head
      have hne := (Number.unsigned_digits n.natAbs).signless
      rw [Literal.lexemes, Number.decimalText]
      by_cases hn : n < 0
      · simp [hn, signedLexemes]
      · rw [hcut] at hne ⊢
        simp [Number.Signless] at hne
        simp [hn, signedLexemes, hne]
    rw [hvalue] at hspells
    rw [hlexemes]
    exact hspells

/-- A literal as it may be written: the word for null in any case of letters, a number with an
optional sign, or a text between quotes of either kind. -/
inductive Writes : List Lexeme → Literal → Prop where
  | null {word : Text} (hword : lower word = "null".toList) : Writes [⟨.name, word⟩] .null
  | number {sign digits : Text} {number : Number.Literal} {l : Literal} (hsign : Number.IsSign sign)
      (hread : Number.Literal.read digits = .ok number)
      (hl : Literal.ofValue (valueOfNumber (number.signed sign)) = .ok l) :
      Writes (sign.map .mark ++ [⟨.number, digits⟩]) l
  | string {text t : Text} (htext : ∀ position, unquote position text = .ok t) :
      Writes [⟨.string, text⟩] (.string t)

/-- A literal that is spelled is written. -/
theorem Spells.writes {ds : List Lexeme} {l : Literal} (h : Spells ds l) : Writes ds l := by
  cases h with
  | null => exact .null (by decide)
  | string t => exact .string fun _ => unquote_quoted t
  | int negative n hn =>
    have hread := Number.read_digits hn
    cases negative with
    | false => exact .number (.inl rfl) hread rfl
    | true => exact .number (.inr (.inr rfl)) hread rfl

/-- A number with an optional sign: the number of its token, with the sign applied. -/
theorem readDefault_signed {sign digits : Text} (hsign : Number.IsSign sign) (room fuel : Nat)
    (h : tokens.map Token.lexeme = sign.map .mark ++ ⟨.number, digits⟩ :: ls) :
    ∃ position rest, rest.map Token.lexeme = ls ∧ readDefault stop room (fuel + 1) tokens
      = (fun number => (valueOfNumber (number.signed sign), rest)) <$>
        readNumber ⟨.number, digits, position⟩ := by
  rcases hsign with rfl | hsign
  · obtain ⟨position, rest, rfl, hrest⟩ := exists_token h
    refine ⟨position, rest, hrest, ?_⟩
    rw [readDefault]
    cases readNumber ⟨.number, digits, position⟩ <;> rfl
  · obtain ⟨c, rfl, hc⟩ : ∃ c, sign = [c] ∧ (c = '+' ∨ c = '-') := by
      rcases hsign with rfl | rfl <;> simp
    obtain ⟨position, rest, rfl, hrest⟩ := exists_token h
    obtain ⟨position', after, hafter, hdigits⟩ :=
      expectKind_lexeme stop .number hrest
    refine ⟨position', after, hafter, ?_⟩
    rw [readDefault]
    simp only [Lexeme.mark, hdigits]
    rw [if_pos (by simpa using hc)]
    change (do
      let number ← readNumber ⟨.number, digits, position'⟩
      pure (valueOfNumber (if [c] = ['-'] then number.neg else number), after)) = _
    cases readNumber ⟨.number, digits, position'⟩ <;> rfl

/-- A literal is read as it is written, and the lexemes behind it are left. The word for null is a
name, which has a reader of its own. -/
theorem readDefault_written {ds : List Lexeme} {l : Literal} (hl : Writes ds l) (room fuel : Nat)
    (h : tokens.map Token.lexeme = ds ++ ls) :
    ∃ value rest, rest.map Token.lexeme = ls ∧ Literal.ofValue value = .ok l ∧
      readDefault stop (room + 1) (fuel + 2) tokens = .ok (value, rest) := by
  cases hl with
  | null hword =>
    obtain ⟨position, rest, rfl, hrest⟩ := exists_token h
    refine ⟨.null, rest, hrest, rfl, ?_⟩
    rw [readDefault]
    simp only [deeper, readNamed, if_pos hword]
  | string htext =>
    obtain ⟨position, rest, rfl, hrest⟩ := exists_token h
    refine ⟨.string _, rest, hrest, rfl, ?_⟩
    rw [readDefault]
    simp only [htext]
    rfl
  | number hsign hread hvalue =>
    rw [List.append_assoc] at h
    obtain ⟨position, rest, hrest, hdefault⟩ :=
      readDefault_signed stop hsign (room + 1) (fuel + 1) h
    refine ⟨_, rest, hrest, hvalue, ?_⟩
    rw [hdefault, readNumber, hread]
    rfl

/-! ## 3. Parameters -/

/-- A parameter whose type and name are read as they are written. -/
structure Parameter.Readable (p : Parameter) : Prop where
  name : isIdentifier p.name = true
  className : ∀ t, p.type = some t → ClassName t
  typed : p.nullable = true → p.type ≠ none

/-- What a parameter says of the type. -/
theorem Parameter.Readable.typing {p : Parameter} (hp : p.Readable) :
    typingOfName ((if p.nullable then ['?'] else []) ++ p.type.getD [])
      = .ok { type := p.type.map TypeRef.ofName, nullable := p.nullable } := by
  cases htype : p.type with
  | none =>
    have hnullable : p.nullable = false := by simpa [htype] using hp.typed
    rw [hnullable]
    rfl
  | some type => exact typingOfName_written (hp.className type htype) p.nullable

/-- A parameter without a default, in front of something else than an equals sign. -/
theorem readParameter_required {p : Parameter} (hp : p.Readable) (hdefault : p.default = none)
    (hls : ls.head? ≠ some (.mark '=')) (room fuel : Nat)
    (h : tokens.map Token.lexeme = p.lexemes ++ ls) : ∃ rest, rest.map Token.lexeme = ls ∧
      readParameter stop room fuel tokens = (·, rest) <$> (p.declaration none).inBody := by
  rw [Parameter.lexemes, hdefault, Option.map_none, Option.getD_none, List.append_assoc,
    List.singleton_append] at h
  obtain ⟨afterType, hafterType, htype⟩ := readTypeName_written stop hp.typed h
  obtain ⟨rest, hrest, hname⟩ := readVariable_written stop hafterType
  refine ⟨rest, hrest, ?_⟩
  have hequals : startsWith '=' rest = false := by simpa [startsWith_eq _ hrest] using hls
  have hread : readParameter stop room fuel tokens = (do
      let d ← (p.declaration none).inBody
      pure (d, rest)) := by
    simp only [readParameter, bind, Except.bind, htype, hname, hp.typing, Except.mapError, hequals]
    rfl
  rw [hread]
  cases (p.declaration none).inBody <;> rfl

/-- A parameter with a default: what the default comes to, and the declaration with it. -/
theorem readParameter_optional {p : Parameter} (hp : p.Readable) {ds : List Lexeme}
    (hdefault : p.default = some ds) (room fuel : Nat)
    (h : tokens.map Token.lexeme = p.lexemes ++ ls) :
    ∃ rest, rest.map Token.lexeme = ds ++ ls ∧ readParameter stop room fuel tokens = (do
      let (value, left) ← readDefault stop room fuel rest
      let l ← (Literal.ofValue value).mapError DefaultError.inBody
      let d ← (p.declaration (some l)).inBody
      pure (d, left)) := by
  rw [Parameter.lexemes, hdefault, Option.map_some, Option.getD_some, List.append_assoc,
    List.cons_append] at h
  obtain ⟨afterType, hafterType, htype⟩ := readTypeName_written stop hp.typed h
  obtain ⟨afterName, hafterName, hname⟩ := readVariable_written stop hafterType
  have hequals : startsWith '=' afterName = true := by simp [startsWith_eq _ hafterName]
  obtain ⟨position, rest, rfl, hrest⟩ := exists_token hafterName
  refine ⟨rest, hrest, ?_⟩
  simp only [readParameter, bind, Except.bind, htype, hname, hp.typing, Except.mapError, hequals]
  rfl

/-- A parameter that says a declaration: its type is the one its name means, and its default is
spelled as a literal. -/
structure Parameter.Declares (p : Parameter) (d : Declaration) : Prop extends p.Readable where
  notReserved : isReserved p.name = false
  default : Option.Rel Spells p.default d.default
  declaration : d = p.declaration d.default

/-- A parameter that a declaration is read from: as with `Declares`, but the default may be any
that is written. -/
structure Parameter.Says (p : Parameter) (d : Declaration) : Prop extends p.Readable where
  notReserved : isReserved p.name = false
  default : Option.Rel Writes p.default d.default
  declaration : d = p.declaration d.default

theorem Parameter.Declares.says {p : Parameter} {d : Declaration} (h : p.Declares d) :
    p.Says d := by
  have hwrites : ∀ {ds : Option (List Lexeme)} {l : Option Literal},
      Option.Rel Spells ds l → Option.Rel Writes ds l := by
    rintro _ _ (hspells | _)
    · exact .some hspells.writes
    · exact .none
  exact ⟨h.toReadable, h.notReserved, hwrites h.default, h.declaration⟩

theorem inBody_declaration {p : Parameter} (hp : p.Readable) (hreserved : isReserved p.name = false)
    (default : Option Literal) :
    (p.declaration default).inBody = .ok (p.declaration default) := by
  have hcheck : checkName p.name = .ok () := by
    simp [checkName, uptoLineFeed, hp.name, hreserved]
  have hrequired : (default.isSome && default.isNone) = false := by cases default <;> rfl
  simp [Declaration.inBody, Declaration.validate, Parameter.declaration, hcheck, hrequired, bind,
    Except.bind, Except.mapError]

/-- A parameter is read as the declaration that it says. -/
theorem readParameter_says {p : Parameter} {d : Declaration} (hp : p.Says d)
    (hls : ls.head? ≠ some (.mark '=')) (room fuel : Nat)
    (h : tokens.map Token.lexeme = p.lexemes ++ ls) :
    ∃ rest, rest.map Token.lexeme = ls ∧
      readParameter stop (room + 1) (fuel + 2) tokens = .ok (d, rest) := by
  have hbody : (p.declaration d.default).inBody = .ok d := by
    rw [inBody_declaration hp.toReadable hp.notReserved, ← hp.declaration]
  have hrel := hp.default
  cases hpd : p.default with
  | none =>
    cases hdd : d.default with
    | some l =>
      rw [hpd, hdd] at hrel
      exact nomatch hrel
    | none =>
      obtain ⟨rest, hrest, hread⟩ :=
        readParameter_required stop hp.toReadable hpd hls (room + 1) (fuel + 2) h
      rw [hdd] at hbody
      refine ⟨rest, hrest, ?_⟩
      rw [hread, hbody]
      rfl
  | some ds =>
    cases hdd : d.default with
    | none =>
      rw [hpd, hdd] at hrel
      exact nomatch hrel
    | some l =>
      rw [hpd, hdd] at hrel
      obtain ⟨hwrites⟩ := hrel
      obtain ⟨afterName, hafterName, hread⟩ :=
        readParameter_optional stop hp.toReadable hpd (room + 1) (fuel + 2) h
      obtain ⟨value, rest, hrest, hvalue, hdefault⟩ :=
        readDefault_written stop hwrites room fuel hafterName
      rw [hdd] at hbody
      refine ⟨rest, hrest, ?_⟩
      rw [hread, hdefault]
      simp [bind, Except.bind, hvalue, Except.mapError, hbody, pure, Except.pure]

/-! ## 4. Lists -/

/-- Behind the first parameter of a list the list ends, or a comma and the others follow. -/
theorem listLexemes_cons (trailing : Bool) (p : Parameter) (ps : List Parameter) :
    ∃ tail, listLexemes trailing (p :: ps) = p.lexemes ++ tail ∧
      (tail = [] ∧ ps = [] ∨ tail = .mark ',' :: listLexemes trailing ps) := by
  cases ps with
  | nil => cases trailing <;> simp [listLexemes]
  | cons q ps => simp [listLexemes]

theorem lexemes_ne_nil (p : Parameter) : p.lexemes ≠ [] := by
  simp [Parameter.lexemes]

/-- A list of parameters is read as the declarations that they say. -/
theorem readParameters_listed {trailing : Bool} {ps : List Parameter} {ds : List Declaration}
    (h : List.Forall₂ Parameter.Says ps ds) (room : Nat) {fuel : Nat} (hfuel : ps.length ≤ fuel)
    (htokens : tokens.map Token.lexeme = listLexemes trailing ps) :
    readParameters stop (room + 1) fuel tokens = .ok ds := by
  induction h generalizing fuel tokens with
  | nil =>
    obtain rfl := List.map_eq_nil_iff.mp htokens
    cases fuel <;> rfl
  | @cons p d ps ds hp hps ih =>
    obtain ⟨tail, hcut, htail⟩ := listLexemes_cons trailing p ps
    rw [hcut] at htokens
    have hequals : tail.head? ≠ some (.mark '=') := by
      rcases htail with ⟨rfl, _⟩ | rfl
      · exact nofun
      · simp [Lexeme.mark]
    cases tokens with
    | nil => exact absurd (List.append_eq_nil_iff.mp htokens.symm).1 (lexemes_ne_nil p)
    | cons token tokens =>
      obtain ⟨fuel, rfl⟩ := Nat.exists_eq_succ_of_ne_zero (Nat.ne_zero_of_lt hfuel)
      obtain ⟨rest, hrest, hread⟩ := readParameter_says stop hp hequals room
        (2 * tokens.length + 1) htokens
      have hlength : 2 * (token :: tokens).length + 1 = 2 * tokens.length + 1 + 2 := by
        rw [List.length_cons]
        omega
      rw [readParameters.eq_3 _ _ _ _ (List.cons_ne_nil token tokens), hlength, hread]
      rcases htail with ⟨rfl, rfl⟩ | rfl
      · cases hps
        obtain rfl := List.map_eq_nil_iff.mp hrest
        rfl
      · obtain ⟨position, others, rfl, hothers⟩ := exists_token hrest
        have hds := ih (Nat.le_of_succ_le_succ hfuel) hothers
        simp [bind, Except.bind, pure, Except.pure, startsWith, Lexeme.mark, hds]

end ViewContract.Signature
