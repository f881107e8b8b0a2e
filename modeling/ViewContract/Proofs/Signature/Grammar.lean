/-
ViewContract.Proofs.Signature.Grammar — the parameter lists that are accepted.

The readers accept what is written as parameters with commas between them, and nothing else:
arrays, constants and constructions are read, too, but no default comes of them. So acceptance
can be said without the readers, and the body is told apart from its parameters by the lexemes
alone:

  §1 defaults. A default that comes of what is read is written as `Writes` says.
  §2 parameters and lists, read off their tokens.
  §3 accepted bodies (`declarations_eq_ok_iff`).
  §4 two accepted bodies with a comma between them (`declarations_comma`).
-/
import ViewContract.Proofs.Annotation.WellFormed
import ViewContract.Proofs.Signature.Listed
import ViewContract.Proofs.Signature.Seam

namespace ViewContract.Signature

open ViewContract.Text

/-! ## 1. Defaults -/

/-- The text of a string does not depend on where the string stands. -/
theorem unescapeDoubleFrom_of_position {position : Option Nat} {covered : Nat} {t u : Text}
    (h : unescapeDoubleFrom position covered t = .ok u) (position' : Option Nat) :
    unescapeDoubleFrom position' covered t = .ok u := by
  induction t generalizing covered u with
  | nil => exact h
  | cons c t ih =>
    cases covered with
    | succ covered => exact ih h
    | zero =>
      rw [unescapeDoubleFrom] at h ⊢
      by_cases hslash : c ≠ '\\'
      · rw [if_pos hslash] at h ⊢
        exact map_eq_ok_of_imp h ih
      · rw [if_neg hslash] at h ⊢
        cases hescape : escape? t with
        | none =>
          rw [hescape] at h
          exact map_eq_ok_of_imp h ih
        | some escape =>
          rw [hescape] at h
          cases escape with
          | char d length => exact map_eq_ok_of_imp h ih
          | plain d => exact map_eq_ok_of_imp h ih
          | codePoint n length =>
            dsimp only at h ⊢
            by_cases hlast : lastCodePoint < n
            · rw [if_pos hlast] at h
              cases h
            · rw [if_neg hlast] at h ⊢
              exact map_eq_ok_of_imp h ih

theorem unquote_of_position {position : Option Nat} {token t : Text}
    (h : unquote position token = .ok t) (position' : Option Nat) :
    unquote position' token = .ok t := by
  rw [unquote] at h ⊢
  by_cases hsingle : token.head? = some '\''
  · rwa [if_pos hsingle] at h ⊢
  · rw [if_neg hsingle] at h ⊢
    exact unescapeDoubleFrom_of_position h position'

section readers

variable {stop room fuel : Nat} {tokens rest : List Token}

theorem lexeme_of_startsWith {c : Char} (h : startsWith c tokens = true) :
    tokens.map Token.lexeme = .mark c :: (tokens.drop 1).map Token.lexeme := by
  cases tokens with
  | nil => cases h
  | cons token rest =>
    obtain ⟨hkind, htext⟩ : token.kind = .punctuation ∧ token.text = [c] := by
      simpa [startsWith] using h
    rw [List.map_cons, Token.lexeme, hkind, htext]
    rfl

theorem lexeme_of_expectKind {kind : TokenKind} {what : Expected} {token : Token}
    (h : expectKind stop kind what tokens = .ok (token, rest)) :
    tokens.map Token.lexeme = ⟨kind, token.text⟩ :: rest.map Token.lexeme := by
  obtain ⟨rfl, rfl⟩ := suffix_of_expectKind h
  rfl

/-- Behind an opening bracket only arrays are read. -/
theorem exists_list_of_readItems {closer : Char} {items : List Value} {v : Value}
    (h : readItems stop room closer fuel items tokens = .ok (v, rest)) :
    ∃ read, v = .list read := by
  induction fuel generalizing items tokens with
  | zero =>
    rw [readItems] at h
    exact absurd h unexpected_ne_ok
  | succ fuel ih =>
    have hlater : ∀ {items : List Value} {left : List Token},
        Reading.afterItem stop (Reading.read stop fuel) room closer items left = .ok (v, rest) →
        ∃ read, v = .list read := by
      intro items left hread
      rw [Reading.afterItem] at hread
      split at hread
      · exact ⟨_, (congrArg Prod.fst (Except.ok.inj hread)).symm⟩
      · split at hread
        · exact ih hread
        · exact absurd hread unexpected_ne_ok
    have h : (Reading.array closer items tokens).read stop (fuel + 1) room = .ok (v, rest) := h
    rw [Reading.read_succ, Reading.step_array] at h
    split at h
    · exact ⟨_, (congrArg Prod.fst (Except.ok.inj h)).symm⟩
    · obtain ⟨⟨item, after⟩, _, hread⟩ := exists_of_bind_eq_ok h
      dsimp only at hread
      split at hread
      · obtain ⟨⟨value, left⟩, _, hread⟩ := exists_of_bind_eq_ok hread
        exact hlater hread
      · exact hlater hread

/-- Of what begins with a name only null is a literal. -/
theorem null_of_readNamed {name : Text} {v : Value} {l : Literal} (hl : Literal.ofValue v = .ok l)
    (h : readNamed stop room fuel name tokens = .ok (v, rest)) :
    lower name = "null".toList ∧ v = .null ∧ rest = tokens := by
  cases fuel with
  | zero =>
    rw [readNamed] at h
    exact absurd h unexpected_ne_ok
  | succ fuel =>
    rw [readNamed.eq_def] at h
    dsimp only at h
    split at h
    · obtain ⟨rfl, rfl⟩ := Prod.ext_iff.mp (Except.ok.inj h)
      exact ⟨‹_›, rfl, rfl⟩
    · exfalso
      split at h
      · obtain ⟨rfl, -⟩ := Prod.ext_iff.mp (Except.ok.inj h)
        cases hl
      · split at h
        · obtain ⟨rfl, -⟩ := Prod.ext_iff.mp (Except.ok.inj h)
          cases hl
        · split at h
          · obtain ⟨_, -, h⟩ := exists_of_deeper_eq_ok h
            obtain ⟨_, rfl⟩ := exists_list_of_readItems h
            cases hl
          · split at h
            · obtain ⟨⟨ofClass, after⟩, _, h⟩ := exists_of_bind_eq_ok h
              dsimp only at h
              split at h
              · obtain ⟨_, _, h⟩ := exists_of_bind_eq_ok h
                obtain ⟨rfl, -⟩ := Prod.ext_iff.mp (Except.ok.inj h)
                cases hl
              · obtain ⟨rfl, -⟩ := Prod.ext_iff.mp (Except.ok.inj h)
                cases hl
            · split at h
              · obtain ⟨_, _, h⟩ := exists_of_bind_eq_ok h
                obtain ⟨rfl, -⟩ := Prod.ext_iff.mp (Except.ok.inj h)
                cases hl
              · obtain ⟨rfl, -⟩ := Prod.ext_iff.mp (Except.ok.inj h)
                cases hl

/-- A default that is a literal is a number with a sign or without one, a string or null. -/
theorem exists_writes_of_readDefault {v : Value} {l : Literal} (hl : Literal.ofValue v = .ok l)
    (h : readDefault stop room fuel tokens = .ok (v, rest)) :
    ∃ ds, Writes ds l ∧ tokens.map Token.lexeme = ds ++ rest.map Token.lexeme := by
  cases fuel with
  | zero =>
    rw [readDefault.eq_def] at h
    exact absurd h unexpected_ne_ok
  | succ fuel =>
    cases tokens with
    | nil =>
      rw [readDefault.eq_def] at h
      exact absurd h unexpected_ne_ok
    | cons token tokens =>
      rw [readDefault.eq_def] at h
      dsimp only at h
      split at h
      · rename_i hkind
        split at h
        · rename_i hsign
          have hsign : token.text = ['+'] ∨ token.text = ['-'] := by simpa using hsign
          obtain ⟨⟨digits, after⟩, hdigits, h⟩ := exists_of_bind_eq_ok h
          obtain ⟨number, hnumber, h⟩ := exists_of_bind_eq_ok h
          obtain ⟨rfl, rfl⟩ := Prod.ext_iff.mp (Except.ok.inj h)
          have hmark : token.lexeme :: [⟨.number, digits.text⟩]
              = token.text.map .mark ++ [⟨.number, digits.text⟩] := by
            rcases hsign with htext | htext <;> simp [Token.lexeme, hkind, htext, Lexeme.mark]
          refine ⟨_, .number (.inr hsign) (eq_ok_of_mapError hnumber) hl, ?_⟩
          rw [← hmark, List.map_cons, lexeme_of_expectKind hdigits]
          rfl
        · split at h
          · obtain ⟨_, -, h⟩ := exists_of_deeper_eq_ok h
            obtain ⟨_, rfl⟩ := exists_list_of_readItems h
            cases hl
          · exact absurd h unexpected_ne_ok
      · rename_i hkind
        obtain ⟨number, hnumber, h⟩ := exists_of_bind_eq_ok h
        obtain ⟨rfl, rfl⟩ := Prod.ext_iff.mp (Except.ok.inj h)
        have hsign : Number.IsSign [] := .inl rfl
        refine ⟨_, .number hsign (eq_ok_of_mapError hnumber) hl, ?_⟩
        rw [List.map_cons, Token.lexeme, hkind]
        rfl
      · rename_i hkind
        obtain ⟨text, htext, h⟩ := exists_of_bind_eq_ok h
        obtain ⟨rfl, rfl⟩ := Prod.ext_iff.mp (Except.ok.inj h)
        obtain rfl := Except.ok.inj hl
        refine ⟨_, .string (unquote_of_position (eq_ok_of_mapError htext)), ?_⟩
        rw [List.map_cons, Token.lexeme, hkind]
        rfl
      · rename_i hkind
        obtain ⟨_, -, h⟩ := exists_of_deeper_eq_ok h
        obtain ⟨hword, rfl, rfl⟩ := null_of_readNamed hl h
        obtain rfl := Except.ok.inj hl
        refine ⟨_, .null hword, ?_⟩
        rw [List.map_cons, Token.lexeme, hkind]
        rfl
      · exact absurd h unexpected_ne_ok

/-! ## 2. Parameters -/

theorem exists_type_of_readTypeName {raw : Text}
    (hworded : ∀ l ∈ tokens.map Token.lexeme, l.Worded)
    (h : readTypeName stop tokens = .ok (raw, rest)) : ∃ (nullable : Bool) (type : Option Text),
      raw = (if nullable then ['?'] else []) ++ type.getD [] ∧
      (∀ t, type = some t → ClassName t) ∧ (nullable = true → type ≠ none) ∧
      tokens.map Token.lexeme = (if nullable then [.mark '?'] else []) ++
        type.toList.map (⟨.name, ·⟩) ++ rest.map Token.lexeme := by
  rw [readTypeName.eq_def] at h
  split at h
  · rename_i hmark
    obtain ⟨⟨token, after⟩, htoken, h⟩ := exists_of_bind_eq_ok h
    obtain ⟨rfl, rfl⟩ := Prod.ext_iff.mp (Except.ok.inj h)
    have hlexemes := lexeme_of_startsWith hmark
    rw [lexeme_of_expectKind htoken] at hlexemes
    have hname : ClassName token.text :=
      (hworded ⟨.name, token.text⟩ (hlexemes ▸ by simp)).className rfl
    exact ⟨true, some token.text, rfl, fun t ht => Option.some.inj ht ▸ hname,
      fun _ => Option.some_ne_none _, hlexemes⟩
  · split at h
    · rename_i text position rest _
      obtain ⟨rfl, rfl⟩ := Prod.ext_iff.mp (Except.ok.inj h)
      have hname : ClassName text := (hworded ⟨.name, text⟩ List.mem_cons_self).className rfl
      exact ⟨false, some text, rfl, fun t ht => Option.some.inj ht ▸ hname,
        fun _ => Option.some_ne_none _, rfl⟩
    · obtain ⟨rfl, rfl⟩ := Prod.ext_iff.mp (Except.ok.inj h)
      exact ⟨false, none, rfl, fun t ht => absurd ht.symm (Option.some_ne_none t),
        fun hmark => absurd hmark Bool.false_ne_true, rfl⟩

theorem lexeme_of_readVariable {name : Text} (hworded : ∀ l ∈ tokens.map Token.lexeme, l.Worded)
    (h : readVariable stop tokens = .ok (name, rest)) : isIdentifier name = true ∧
      tokens.map Token.lexeme = .ofName name :: rest.map Token.lexeme := by
  rw [readVariable.eq_def] at h
  split at h
  · cases h
  · obtain ⟨⟨token, after⟩, htoken, h⟩ := exists_of_bind_eq_ok h
    obtain ⟨rfl, rfl⟩ := Prod.ext_iff.mp (Except.ok.inj h)
    have hlexemes := lexeme_of_expectKind htoken
    obtain ⟨name, hname, hlexeme⟩ :=
      (hworded ⟨.variableName, token.text⟩ (hlexemes ▸ List.mem_cons_self)).variableName rfl
    have htext : token.text = '$' :: name := congrArg Lexeme.text hlexeme
    rw [hlexemes, hlexeme, htext]
    exact ⟨hname, rfl⟩

/-- Whatever is read as a parameter is one. -/
theorem exists_says_of_readParameter {d : Declaration}
    (hworded : ∀ l ∈ tokens.map Token.lexeme, l.Worded)
    (h : readParameter stop room fuel tokens = .ok (d, rest)) :
    ∃ p : Parameter, p.Says d ∧ tokens.map Token.lexeme = p.lexemes ++ rest.map Token.lexeme := by
  obtain ⟨_, afterType, afterName, typing, htype, hname, htyping, hdefault, hbody, hd⟩ :=
    exists_of_readParameter h
  obtain ⟨nullable, type, rfl, hclass, htyped, htypeLexemes⟩ :=
    exists_type_of_readTypeName hworded htype
  have hworded' : ∀ l ∈ afterType.map Token.lexeme, l.Worded := fun l hl =>
    hworded l (htypeLexemes ▸ List.mem_append_right _ hl)
  obtain ⟨hidentifier, hnameLexemes⟩ := lexeme_of_readVariable hworded' hname
  rw [hnameLexemes] at htypeLexemes
  have hreadable : ∀ default, Parameter.Readable ⟨nullable, type, d.name, default⟩ :=
    fun default => ⟨hidentifier, hclass, htyped⟩
  have hmeans := (hreadable none).typing
  rw [htyping] at hmeans
  obtain rfl := Except.ok.inj hmeans
  have hreserved := notReserved_of_inBody hbody
  generalize hliteral : d.default = default at hdefault hd
  cases hdefault with
  | nothing =>
    refine ⟨⟨nullable, type, d.name, none⟩, ⟨hreadable none, hreserved, ?_, ?_⟩, ?_⟩
    · rw [hliteral]
      exact .none
    · rw [hliteral]
      exact hd
    · rw [htypeLexemes]
      simp [Parameter.lexemes]
  | default hequals hvalue hl =>
    obtain ⟨ds, hwrites, hlexemes⟩ := exists_writes_of_readDefault hl hvalue
    refine ⟨⟨nullable, type, d.name, some ds⟩, ⟨hreadable (some ds), hreserved, ?_, ?_⟩, ?_⟩
    · rw [hliteral]
      exact .some hwrites
    · rw [hliteral]
      exact hd
    · rw [htypeLexemes, lexeme_of_startsWith hequals, hlexemes]
      simp [Parameter.lexemes]

end readers

/-- Two lists of parameters with a comma between them are a list of parameters. -/
theorem exists_listLexemes_append {ps : List Parameter} (hps : ps ≠ []) (trailing : Bool)
    (qs : List Parameter) : ∃ trailing', listLexemes trailing' (ps ++ qs)
      = listLexemes false ps ++ .mark ',' :: listLexemes trailing qs := by
  induction ps with
  | nil => exact absurd rfl hps
  | cons p ps ih =>
    cases ps with
    | nil =>
      cases qs with
      | nil => exact ⟨true, by simp [listLexemes]⟩
      | cons q qs => exact ⟨trailing, by simp [listLexemes]⟩
    | cons p' ps =>
      obtain ⟨trailing', hlater⟩ := ih (List.cons_ne_nil p' ps)
      rw [List.cons_append] at hlater
      exact ⟨trailing', by simp [listLexemes, hlater]⟩

/-- Whatever is read as a list of parameters is one. -/
theorem exists_listed_of_readParameters {stop room fuel : Nat} {tokens : List Token}
    {ds : List Declaration} (hworded : ∀ l ∈ tokens.map Token.lexeme, l.Worded)
    (h : readParameters stop room fuel tokens = .ok ds) : ∃ trailing ps,
      List.Forall₂ Parameter.Says ps ds ∧ tokens.map Token.lexeme = listLexemes trailing ps := by
  induction fuel generalizing tokens ds with
  | zero =>
    cases tokens with
    | nil =>
      obtain rfl := Except.ok.inj h
      exact ⟨false, [], .nil, rfl⟩
    | cons token tokens => exact absurd h unexpected_ne_ok
  | succ fuel ih =>
    cases tokens with
    | nil =>
      obtain rfl := Except.ok.inj h
      exact ⟨false, [], .nil, rfl⟩
    | cons token tokens =>
      obtain ⟨⟨d, rest⟩, hd, h⟩ := exists_of_bind_eq_ok h
      obtain ⟨p, hp, hlexemes⟩ := exists_says_of_readParameter hworded hd
      dsimp only at h
      split at h
      · obtain rfl := Except.ok.inj h
        exact ⟨false, [p], .cons hp .nil, by rw [hlexemes]; rfl⟩
      · split at h
        · rename_i hcomma
          obtain ⟨others, hothers, h⟩ := exists_of_bind_eq_ok h
          obtain rfl := Except.ok.inj h
          rw [lexeme_of_startsWith hcomma] at hlexemes
          obtain ⟨trailing, ps, hps, hlater⟩ := ih (fun l hl => hworded l (by
            rw [hlexemes]
            exact List.mem_append_right _ (List.mem_cons_of_mem _ hl))) hothers
          obtain ⟨trailing', hlist⟩ :=
            exists_listLexemes_append (List.cons_ne_nil p []) trailing ps
          refine ⟨trailing', p :: ps, .cons hp hps, ?_⟩
          calc (token :: tokens).map Token.lexeme
              = listLexemes false [p] ++ .mark ',' :: listLexemes trailing ps := by
                rw [hlexemes, hlater]
                simp [listLexemes]
            _ = listLexemes trailing' (p :: ps) := hlist.symm
        · exact absurd h unexpected_ne_ok

/-! ## 3. Accepted bodies -/

/-- A body is accepted exactly if it is a list of parameters that declare distinct names. -/
theorem declarations_eq_ok_iff {body : Text} {ds : List Declaration} :
    declarations body = .ok ds ↔ (ds.map Declaration.name).Nodup ∧ ∃ trailing ps,
      List.Forall₂ Parameter.Says ps ds ∧ Lexed (listLexemes trailing ps) body := by
  constructor
  · intro h
    obtain ⟨tokens, htokens, h⟩ := exists_of_bind_eq_ok h
    obtain ⟨read, hread, h⟩ := exists_of_bind_eq_ok h
    obtain ⟨rfl, hnodup⟩ := nodup_of_distinct h
    have htokens := eq_ok_of_mapError htokens
    obtain ⟨trailing, ps, hps, hlexemes⟩ := exists_listed_of_readParameters
      (List.forall_mem_map.mpr (worded_of_tokenize htokens)) hread
    exact ⟨hnodup, trailing, ps, hps, hlexemes ▸ lexed_of_tokenize htokens⟩
  · rintro ⟨hnodup, trailing, ps, hps, hbody⟩
    exact declarations_of_lexed hps hnodup hbody

/-! ## 4. Bodies with a comma between them -/

theorem listLexemes_trailing {ps : List Parameter} (hps : ps ≠ []) :
    listLexemes true ps = listLexemes false ps ++ [.mark ','] := by
  induction ps with
  | nil => exact absurd rfl hps
  | cons p ps ih =>
    cases ps with
    | nil => simp [listLexemes]
    | cons q ps => simp [listLexemes, ih (List.cons_ne_nil q ps)]

/-- A list of parameters whose last token is no comma has none behind its last parameter. -/
theorem exists_last_of_listLexemes {trailing : Bool} {ps : List Parameter} {l : Lexeme}
    (hlast : (listLexemes trailing ps).getLast? = some l) (hl : l ≠ .mark ',') :
    trailing = false ∧ ps ≠ [] := by
  have hps : ps ≠ [] := by
    rintro rfl
    exact nomatch hlast
  refine ⟨Bool.eq_false_iff.mpr ?_, hps⟩
  rintro rfl
  rw [listLexemes_trailing hps, List.getLast?_concat] at hlast
  exact hl (Option.some.inj hlast).symm

/-- Two accepted bodies with a comma between them declare what the first and then the second
declares, if the first has a token and its last one is no comma, and if no name is in both. -/
theorem declarations_comma {body rest : Text} {ds ds' : List Declaration} {tokens : List Token}
    {last : Token} (h : declarations body = .ok ds) (h' : declarations rest = .ok ds')
    (hdisjoint : ∀ d ∈ ds, ∀ d' ∈ ds', d.name ≠ d'.name) (htokens : tokenize body = .ok tokens)
    (hlast : tokens.getLast? = some last) (hcomma : last.lexeme ≠ .mark ',') :
    declarations (body ++ ',' :: rest) = .ok (ds ++ ds') := by
  obtain ⟨hnodup, trailing, ps, hps, hbody⟩ := declarations_eq_ok_iff.mp h
  obtain ⟨hnodup', trailing', qs, hqs, hrest⟩ := declarations_eq_ok_iff.mp h'
  obtain ⟨tokens', htokens', hlexemes⟩ := tokenize_of_lexed hbody
  obtain rfl : tokens = tokens' := Except.ok.inj (htokens.symm.trans htokens')
  obtain ⟨rfl, hne⟩ : trailing = false ∧ ps ≠ [] := by
    refine exists_last_of_listLexemes ?_ hcomma
    rw [← hlexemes, List.getLast?_map, hlast]
    rfl
  obtain ⟨behind, hlist⟩ := exists_listLexemes_append hne trailing' qs
  refine declarations_eq_ok_iff.mpr ⟨nodup_names_append hnodup hnodup' hdisjoint, behind, ps ++ qs,
    List.rel_append hps hqs, ?_⟩
  rw [hlist]
  exact hbody.comma hrest

end ViewContract.Signature
