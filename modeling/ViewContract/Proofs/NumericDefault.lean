/-
ViewContract.Proofs.NumericDefault — numeric defaults in either notation.

A number is given as the default of an `int` or a `float`, once in a parameter list and once in
a doc comment. The parameter list keeps the number as it reads, the doc comment turns it into
the declared kind:

  §1 the declaration in a parameter list.
  §2 the declaration in a doc comment.
  §3 the comparison. The declarations are the same but for an integer as the default of a
     `float`; there the default of the parameter list fails the guard of its own type
     (`numeric_defaults_read`).
-/
import ViewContract.Proofs.Docblock.Line
import ViewContract.Proofs.Guard.Default
import ViewContract.Proofs.Number.Overflow
import ViewContract.Proofs.Signature.Listed
import ViewContract.Proofs.Signature.Number

namespace ViewContract

open Template Text

/-- An optional variable of a kind. -/
def optionalOfKind (kind : Kind) (name : Text) (default : Literal) : Declaration where
  name := name
  required := false
  type := some (.primitive kind)
  default := some default

/-- A parameter of a kind with a number as its default. -/
def numericParameter (kind : Kind) (name sign digits : Text) : Signature.Parameter where
  type := some kind.name.toList
  name := name
  default := some (sign.map .mark ++ [⟨.number, digits⟩])

theorem sharedType_kind (kind : Kind) : Entry.SharedType kind.name.toList := by
  cases kind <;> exact .inl rfl

theorem ofName_kind (kind : Kind) : TypeRef.ofName kind.name.toList = .primitive kind := by
  cases kind <;> rfl

theorem readable_numericParameter (kind : Kind) {name : Text} (sign digits : Text)
    (hname : isIdentifier name = true) : (numericParameter kind name sign digits).Readable := by
  refine ⟨hname, fun t ht => ?_, nofun⟩
  obtain rfl := Option.some.inj ht
  exact Docblock.className_of_shared (sharedType_kind kind)

theorem declaration_numericParameter (kind : Kind) (name sign digits : Text) (l : Literal) :
    (numericParameter kind name sign digits).declaration (some l) = optionalOfKind kind name l := by
  simp [numericParameter, Signature.Parameter.declaration, optionalOfKind, ofName_kind]

section notations

variable (kind : Kind) {name sign digits : Text} (hname : isIdentifier name = true)
  (hsign : Number.IsSign sign) (hdigits : Signature.NumberToken digits)

include hname hsign hdigits

/-! ## 1. The parameter list -/

/-- The text of a parameter with a number is its lexemes. -/
theorem lexed_parameterText : Signature.Lexed (numericParameter kind name sign digits).lexemes
    (Signature.parameterText kind.name.toList name (some (sign ++ digits))) := by
  have hblank : isBlank ' ' = true := by decide
  have hnil : Signature.Lexed [] [] := .nil nofun
  have hnumber : Signature.Lexed [⟨.number, digits⟩] digits := by
    simpa using hnil.next hdigits.reads
  have hsigned : Signature.Lexed (sign.map .mark ++ [⟨.number, digits⟩]) (sign ++ digits) := by
    rcases hsign with rfl | rfl | rfl
    · exact hnumber
    · exact hnumber.next (Signature.reads_mark (by simp))
    · exact hnumber.next (Signature.reads_mark (by simp))
  have hequals : Signature.Lexed (.mark '=' :: (sign.map .mark ++ [⟨.number, digits⟩]))
      ('=' :: ' ' :: (sign ++ digits)) :=
    (hsigned.blank hblank).next (Signature.reads_mark (by simp))
  have hvariable := (hequals.blank hblank).next
    (Signature.reads_variable hname (Signature.ends_blank hblank))
  have htype := (hvariable.blank hblank).next (Signature.reads_name
    (Docblock.className_of_shared (sharedType_kind kind)) (Signature.ends_blank hblank))
  have htext : Signature.parameterText kind.name.toList name (some (sign ++ digits))
      = kind.name.toList ++ ' ' :: ('$' :: name ++ ' ' :: '=' :: ' ' :: (sign ++ digits)) := by
    rw [Signature.parameterText_eq, Option.elim_some]
    simp only [List.append_assoc, List.cons_append, List.nil_append]
  rw [htext]
  exact htype

/-- A parameter list with a number: the number of its token, the default that it makes with its
sign, and the declaration with that default. -/
theorem exists_declarations_eq : ∃ position,
    Signature.declarations (Signature.parameterText kind.name.toList name (some (sign ++ digits)))
      = (do
        let number ← Signature.readNumber ⟨.number, digits, position⟩
        let l ← (Literal.ofValue (Signature.valueOfNumber (number.signed sign))).mapError
          DefaultError.inBody
        let d ← (optionalOfKind kind name l).inBody
        pure [d]) := by
  have hreadable := readable_numericParameter kind sign digits hname
  obtain ⟨tokens, htokens, hlexemes⟩ :=
    Signature.tokenize_of_lexed (lexed_parameterText kind hname hsign hdigits)
  obtain ⟨first, others, rfl⟩ : ∃ first others, tokens = first :: others :=
    List.exists_cons_of_ne_nil fun hnil => by
      rw [hnil] at hlexemes
      exact Signature.lexemes_ne_nil _ hlexemes.symm
  generalize Signature.parameterText kind.name.toList name (some (sign ++ digits)) = body at *
  obtain ⟨behind, hbehind, hoptional⟩ := Signature.readParameter_optional body.length hreadable rfl
    Signature.stackRoom (2 * (first :: others).length + 1) (hlexemes.trans (List.append_nil _).symm)
  rw [List.append_nil] at hbehind
  obtain ⟨position, rest, hrest, hsigned⟩ :=
    Signature.readDefault_signed body.length hsign Signature.stackRoom
      (2 * (first :: others).length) hbehind
  obtain rfl := List.map_eq_nil_iff.mp hrest
  refine ⟨position, ?_⟩
  rw [hsigned] at hoptional
  have htokenized :
      (Signature.tokenize body).mapError BodyError.grammar = .ok (first :: others) := by
    rw [htokens]
    rfl
  simp only [Signature.declarations, htokenized, bind, Except.bind]
  rw [List.length_cons, Signature.readParameters.eq_3 _ _ _ _ (List.cons_ne_nil _ _), hoptional]
  simp only [bind, Except.bind, declaration_numericParameter]
  cases Signature.readNumber ⟨.number, digits, position⟩ with
  | error e => rfl
  | ok number =>
    dsimp only [Functor.map, Except.map]
    cases (Literal.ofValue (Signature.valueOfNumber (number.signed sign))).mapError
        DefaultError.inBody with
    | error e => rfl
    | ok l =>
      dsimp only
      cases (optionalOfKind kind name l).inBody with
      | error e => rfl
      | ok d =>
        have hdistinct : distinct [d] = .ok [d] := distinct_eq_ok (List.nodup_singleton _)
        exact hdistinct

/-- A parameter list declares a number as it reads, with its sign. -/
theorem declarations_parameterText {ds : List Declaration}
    (h : Signature.declarations
      (Signature.parameterText kind.name.toList name (some (sign ++ digits))) = .ok ds) :
    ∃ number l, Number.Literal.read (sign ++ digits) = .ok number ∧
      Literal.ofValue (Signature.valueOfNumber number) = .ok l ∧
      ds = [optionalOfKind kind name l] := by
  obtain ⟨position, heq⟩ := exists_declarations_eq kind hname hsign hdigits
  rw [heq] at h
  obtain ⟨number, hnumber, h⟩ := exists_of_bind_eq_ok h
  obtain ⟨l, hl, h⟩ := exists_of_bind_eq_ok h
  obtain ⟨d, hd, h⟩ := exists_of_bind_eq_ok h
  obtain rfl := eq_of_inBody hd
  exact ⟨number.signed sign, l,
    Number.read_signed hsign hdigits.unsigned (eq_ok_of_mapError hnumber),
    eq_ok_of_mapError hl, (Except.ok.inj h).symm⟩

/-! ## 2. The doc comment -/

/-- A doc comment declares a number as its type asks. -/
theorem declarations_lineText {ds : List Declaration}
    (h : (Docblock.declarations
      (Docblock.lineText kind.name.toList name (some (sign ++ digits)))).value = .ok ds) :
    ∃ l, Literal.ofText (sign ++ digits) (some (.primitive kind)) = .ok l ∧
      ds = [{ optionalOfKind kind name .null with default := l }] := by
  have hchar : ∀ c ∈ sign ++ digits, Signature.IsNumberChar c :=
    Signature.numeric_append (Signature.numeric_sign hsign) hdigits.numeric
  have hline : ∀ value, some (sign ++ digits) = some value →
      ∀ c ∈ value, isLineBreak c = false := by
    rintro value hvalue c hc
    obtain rfl := Option.some.inj hvalue
    exact not_isLineBreak_of_not_blank (hchar c hc).not_blank
  have hmarker : ∀ value, some (sign ++ digits) = some value → ')' ∉ value := by
    rintro value hvalue hmem
    obtain rfl := Option.some.inj hvalue
    exact (hchar _ hmem).ne_paren rfl
  have hchars : ∀ c ∈ kind.name.toList, Docblock.IsTypeChar c :=
    Docblock.isTypeChar_typeText (Docblock.className_of_shared (sharedType_kind kind)) false
  have htags := Docblock.tags_lineText hchars hname hline
  obtain ⟨read, hread, hdistinct⟩ := exists_of_bind_eq_ok h
  obtain ⟨rfl, _⟩ := nodup_of_distinct hdistinct
  rw [htags, Docblock.paramTags, Docblock.declarationsOf,
    if_pos (Docblock.declares_param _ _)] at hread
  obtain ⟨d, hd, hothers⟩ := exists_of_bind_eq_ok hread
  obtain rfl := Except.ok.inj hothers
  have hdeclaration := Docblock.declaration_written (sharedType_kind kind) false hname hmarker 1
  rw [if_neg Bool.false_ne_true, List.nil_append, hd] at hdeclaration
  obtain ⟨l, hl, hbody⟩ := exists_of_bind_eq_ok hdeclaration.symm
  have htrim : trim (' ' :: (sign ++ digits)) = sign ++ digits := by
    rw [trim_cons (by decide), Number.trim_signed hsign hdigits.unsigned]
  rw [Option.map_some, Docblock.defaultOfMarker, htrim, ofName_kind] at hl
  refine ⟨l, eq_ok_of_mapError hl, ?_⟩
  rw [eq_of_inBody hbody, ofName_kind]
  rfl

end notations

/-! ## 3. The comparison -/

/-- The literals that either notation makes of a number: the same one, or an integer and the
double nearest to it. -/
theorem literals_of_number {kind : Kind} (hkind : kind = .int ∨ kind = .float) {t : Text}
    {number : Number.Literal} {l₁ : Literal} {l₂ : Option Literal} (hnull : lower t ≠ "null".toList)
    (hread : Number.Literal.read t = .ok number)
    (h₁ : Literal.ofValue (Signature.valueOfNumber number) = .ok l₁)
    (h₂ : Literal.ofText t (some (.primitive kind)) = .ok l₂) :
    (kind = .int ∨ ∃ x, number = .float x) ∧ l₂ = some l₁ ∨
      ∃ n x, kind = .float ∧ number = .int n ∧ Number.Binary64.ofInt? n = some x ∧
        l₁ = .int n ∧ l₂ = some (.float x) := by
  obtain ⟨l, rfl, hstands⟩ := ofText_eq_ok_iff.mp h₂
  cases hstands with
  | null h => exact absurd (lower_eq_null_iff.mpr h) hnull
  | text _ htext => rcases hkind with rfl | rfl <;> rcases htext with h | h <;> cases h
  | number _ hnumber htakes =>
    obtain rfl := Except.ok.inj (hread.symm.trans hnumber)
    cases htakes with
    | int n =>
      obtain rfl := Except.ok.inj h₁
      exact .inl ⟨.inl rfl, rfl⟩
    | @float x hx =>
      have hfinite : Literal.ofFiniteDouble x = .ok l₁ := h₁
      rw [Literal.ofFiniteDouble, if_pos hx] at hfinite
      obtain rfl := Except.ok.inj hfinite
      exact .inl ⟨.inr ⟨x, rfl⟩, rfl⟩
    | @nearest n x hx =>
      obtain rfl := Except.ok.inj h₁
      exact .inr ⟨n, x, rfl, rfl, hx, rfl, rfl⟩

/-- An integer that has a double can be written into a template. -/
theorem short_of_ofInt? {n : ℤ} {x : Number.Binary64} (hx : Number.Binary64.ofInt? n = some x) :
    (Literal.int n).Short := by
  intro m hm
  obtain rfl := Literal.int.inj hm
  exact Number.decimalLength_of_ofInt? hx

theorem short_float (x : Number.Binary64) : (Literal.float x).Short :=
  fun n hn => by cases hn

theorem exists_text_optionalOfKind (δ : Delimiters) (kind : Kind) (name : Text) {l : Literal}
    (hl : l.Short) : ∃ text, guardText δ [optionalOfKind kind name l] = .ok text :=
  (exists_guardText_iff δ _).mpr (List.forall_mem_singleton.mpr fun _ => hl)

theorem hasDefault_optionalOfKind (kind : Kind) (name : Text) (l : Literal) :
    (optionalOfKind kind name l).HasDefault kind l :=
  ⟨rfl, rfl, rfl⟩

/-- **Numeric defaults in either notation**: a number that both accept as the default of an `int`
or a `float` is declared alike, unless it is an integer and the variable a `float`. Then the
parameter list keeps the integer, so that a render without a value reports it as of the wrong
kind, where the context lets it report (`Fails`), while the doc comment has the double nearest to
it, which is bound. -/
theorem numeric_defaults_read {kind : Kind} (hkind : kind = .int ∨ kind = .float)
    {name sign digits : Text} (hname : isIdentifier name = true) (hsign : Number.IsSign sign)
    (hdigits : Signature.NumberToken digits) {ds₁ ds₂ : List Declaration}
    (hlist : Signature.declarations
      (Signature.parameterText kind.name.toList name (some (sign ++ digits))) = .ok ds₁)
    (hblock : (Docblock.declarations
      (Docblock.lineText kind.name.toList name (some (sign ++ digits)))).value = .ok ds₂) :
    ∃ number, Number.Literal.read (sign ++ digits) = .ok number ∧
      (kind = .int ∨ (∃ x, number = .float x) → ds₁ = ds₂) ∧
      ∀ n, kind = .float → number = .int n →
        ∃ x, Number.Binary64.ofInt? n = some x ∧ ds₁ = [optionalOfKind .float name (.int n)] ∧
          ds₂ = [optionalOfKind .float name (.float x)] ∧
          ∀ (env : Environment) (registry : Registry) (context : Context), env.Regular →
            context.given? name = none → ∃ text₁ text₂,
              guardText env.delimiters ds₁ = .ok text₁ ∧ guardText env.delimiters ds₂ = .ok text₂ ∧
              Fails context (runText env registry context text₁)
                (.wrongKind name Kind.float.name.toList Kind.int.name.toList) ∧
              ∃ context', resultOf (runText env registry context text₂) = .ok ([], context') ∧
                context'.value? name = some (.float x) := by
  have hsound₁ := (Signature.sound_of_declarations hlist).1
  have hsound₂ := (Docblock.sound_of_declarations hblock).1
  obtain ⟨number, l₁, hnumber, hl₁, rfl⟩ :=
    declarations_parameterText kind hname hsign hdigits hlist
  obtain ⟨l₂, hl₂, rfl⟩ := declarations_lineText kind hname hsign hdigits hblock
  refine ⟨number, hnumber, ?_⟩
  rcases literals_of_number hkind (Number.lower_signed_ne_null hsign hdigits.unsigned) hnumber hl₁
    hl₂ with ⟨hsame, rfl⟩ | ⟨n, x, rfl, rfl, hx, rfl, rfl⟩
  · refine ⟨fun _ => rfl, ?_⟩
    rintro n rfl rfl
    rcases hsame with hint | ⟨x, hfloat⟩
    · cases hint
    · cases hfloat
  · refine ⟨fun h => ?_, ?_⟩
    · rcases h with hint | ⟨x, hfloat⟩
      · cases hint
      · cases hfloat
    · rintro m - hm
      obtain rfl := Number.Literal.int.inj hm
      refine ⟨x, hx, rfl, rfl, fun env registry context henv habsent => ?_⟩
      obtain ⟨text₁, htext₁⟩ := exists_text_optionalOfKind env.delimiters .float name
        (short_of_ofInt? hx)
      obtain ⟨text₂, htext₂⟩ := exists_text_optionalOfKind env.delimiters .float name
        (short_float x)
      exact ⟨text₁, text₂, htext₁, htext₂,
        (hasDefault_optionalOfKind .float name (.int n)).run_fails henv
          (hsound₁ _ List.mem_cons_self) htext₁ registry habsent (by simp) rfl,
        (hasDefault_optionalOfKind .float name (.float x)).run_binds henv
          (hsound₂ _ List.mem_cons_self) htext₂ registry habsent (.inr rfl)⟩

/-- An integer as the default of a `float` is declared in two ways. -/
theorem numeric_defaults_differ :
    Signature.declarations "float $x = 5".toList = .ok [optionalOfKind .float ['x'] (.int 5)] ∧
      (Docblock.declarations "@param float $x (default: 5)".toList).value
        = .ok [optionalOfKind .float ['x'] (.float (.finite false (5 * 2 ^ 50) (-50)))] := by
  decide +kernel

/-- The default of a `float` that is written as an integer, in a rendering without values. -/
theorem numeric_defaults_read_of_five :
    let x : Number.Binary64 := .finite false (5 * 2 ^ 50) (-50)
    ∃ text₁ text₂,
      guardText {} [optionalOfKind .float ['x'] (.int 5)] = .ok text₁ ∧
      guardText {} [optionalOfKind .float ['x'] (.float x)] = .ok text₂ ∧
      resultOf (runText {} {} (Context.ofValues []) text₁)
        = .error (.check (.wrongKind ['x'] "float".toList "int".toList)) ∧
      ∃ context', resultOf (runText {} {} (Context.ofValues []) text₂) = .ok ([], context') ∧
        context'.value? ['x'] = some (.float x) := by
  intro x
  have hlist : Signature.declarations (Signature.parameterText Kind.float.name.toList ['x']
      (some ([] ++ ['5']))) = .ok [optionalOfKind .float ['x'] (.int 5)] := by decide +kernel
  have hblock : (Docblock.declarations (Docblock.lineText Kind.float.name.toList ['x']
      (some ([] ++ ['5'])))).value = .ok [optionalOfKind .float ['x'] (.float x)] := by
    decide +kernel
  obtain ⟨number, hnumber, _, hinteger⟩ := numeric_defaults_read (.inr rfl) (by decide) (.inl rfl)
    (by decide) hlist hblock
  have hfive : Number.Literal.read ([] ++ ['5']) = .ok (.int 5) := by decide +kernel
  obtain ⟨y, _, _, hy, hrun⟩ := hinteger 5 rfl (Except.ok.inj (hnumber.symm.trans hfive))
  obtain rfl : x = y := by simpa [optionalOfKind] using hy
  obtain ⟨text₁, text₂, htext₁, htext₂, hfails, hbinds⟩ :=
    hrun {} {} (Context.ofValues []) regular_default rfl
  exact ⟨text₁, text₂, htext₁, htext₂, hfails (reports_ofValues fun _ _ => rfl), hbinds⟩

end ViewContract
