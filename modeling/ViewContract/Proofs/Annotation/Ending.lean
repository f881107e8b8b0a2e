/-
ViewContract.Proofs.Annotation.Ending — where the body of a parameter list ends.

Two scans read the body of a parameter list. The first looks for the parenthesis behind it and
knows only quotes, backslashes in them and parentheses; the second cuts the body into tokens. They
agree on every body that is accepted:

  §1 the tokens of accepted bodies. No parameter is written with a parenthesis, since a default
     with one is an array or a construction and is refused.
  §2 accepted bodies on one line. Without parentheses among its tokens, a body is a text that the
     first scan passes over (`enclosed_of_declarations`).
  §3 templates with one at sign, which have no blocks.
  §4 the annotation around an accepted body (`extract_around`).
-/
import ViewContract.Proofs.Annotation.Enclosed
import ViewContract.Proofs.Signature.Grammar

namespace ViewContract

open Text

/-! ## 1. Tokens of accepted bodies -/

namespace Signature

/-- A token that is no parenthesis. -/
def Token.Flat (token : Token) : Prop :=
  ∀ c, c = '(' ∨ c = ')' → token.lexeme ≠ .mark c

/-- A lexeme that is no parenthesis. -/
def Lexeme.Flat (l : Lexeme) : Prop :=
  ∀ c, c = '(' ∨ c = ')' → l ≠ .mark c

theorem Lexeme.flat_of_kind {l : Lexeme} (h : l.kind ≠ .punctuation) : l.Flat :=
  fun _ _ hmark => h (congrArg Lexeme.kind hmark)

theorem flat_mark {c : Char} (hc : c ≠ '(' ∧ c ≠ ')') : (Lexeme.mark c).Flat := by
  rintro d hd hmark
  obtain ⟨rfl, -⟩ := List.cons.inj (congrArg Lexeme.text hmark)
  exact hd.elim hc.1 hc.2

/-- No parenthesis is needed to write a literal. -/
theorem Writes.flat {ds : List Lexeme} {literal : Literal} (h : Writes ds literal) :
    ∀ l ∈ ds, l.Flat := by
  cases h with
  | null => exact List.forall_mem_singleton.mpr (Lexeme.flat_of_kind nofun)
  | string => exact List.forall_mem_singleton.mpr (Lexeme.flat_of_kind nofun)
  | @number sign digits _ _ hsign =>
    have hdigits : Lexeme.Flat ⟨.number, digits⟩ := Lexeme.flat_of_kind nofun
    rcases hsign with rfl | rfl | rfl
    · exact List.forall_mem_singleton.mpr hdigits
    · exact List.forall_mem_cons.mpr
        ⟨flat_mark (by decide), List.forall_mem_singleton.mpr hdigits⟩
    · exact List.forall_mem_cons.mpr
        ⟨flat_mark (by decide), List.forall_mem_singleton.mpr hdigits⟩

theorem Parameter.Says.flat {p : Parameter} {d : Declaration} (h : p.Says d) :
    ∀ l ∈ p.lexemes, l.Flat := by
  have hname : TokenKind.name ≠ .punctuation := by decide
  have hvariable : TokenKind.variableName ≠ .punctuation := by decide
  intro l hl
  simp only [lexemes, List.mem_append, List.mem_cons, List.mem_map] at hl
  rcases hl with (hl | ⟨name, _, rfl⟩) | rfl | hl
  · split at hl
    · rw [List.mem_singleton.mp hl]
      exact flat_mark (by decide)
    · cases hl
  · exact Lexeme.flat_of_kind hname
  · exact Lexeme.flat_of_kind hvariable
  · have hdefault := h.default
    generalize p.default = ds at hl hdefault
    generalize d.default = literal at hdefault
    cases hdefault with
    | none => cases hl
    | some hwrites =>
      rcases List.mem_cons.mp hl with rfl | hl
      · exact flat_mark (by decide)
      · exact hwrites.flat l hl

theorem flat_of_listLexemes {trailing : Bool} {ps : List Parameter} {ds : List Declaration}
    (h : List.Forall₂ Parameter.Says ps ds) : ∀ l ∈ listLexemes trailing ps, l.Flat := by
  induction h with
  | nil => exact fun l hl => nomatch hl
  | @cons p d ps ds hp _ ih =>
    obtain ⟨tail, hcut, htail⟩ := listLexemes_cons trailing p ps
    rw [hcut]
    intro l hl
    rcases List.mem_append.mp hl with hl | hl
    · exact hp.flat l hl
    · rcases htail with ⟨rfl, _⟩ | rfl
      · cases hl
      · rcases List.mem_cons.mp hl with rfl | hl
        · exact flat_mark (by decide)
        · exact ih l hl

/-- No token of an accepted body is a parenthesis. -/
theorem flat_of_declarations {body : Text} {ds : List Declaration}
    (h : declarations body = .ok ds) :
    ∃ tokens, tokenize body = .ok tokens ∧ ∀ token ∈ tokens, token.Flat := by
  obtain ⟨_, trailing, ps, hps, hbody⟩ := declarations_eq_ok_iff.mp h
  obtain ⟨tokens, htokens, hlexemes⟩ := tokenize_of_lexed hbody
  refine ⟨tokens, htokens, fun token htoken => ?_⟩
  have hmem : token.lexeme ∈ listLexemes trailing ps := hlexemes ▸ List.mem_map_of_mem htoken
  exact flat_of_listLexemes hps token.lexeme hmem

end Signature

namespace Annotation

open Signature (Lexeme Spaced)

/-! ## 2. Accepted bodies on one line -/

/-- A token that is no parenthesis stands between parentheses as it is. -/
theorem enclosed_token {l : Lexeme} (hl : l.Shaped)
    (hflat : ∀ c, c = '(' ∨ c = ')' → l ≠ .mark c) (hfeed : '\n' ∉ l.text) {t : Text}
    (ht : Enclosed (fun _ => True) t) : Enclosed (fun _ => True) (l.text ++ t) := by
  cases hl with
  | @string quote s hquote hs =>
    have hcut : quote :: s ++ [quote] ++ t = quote :: s ++ quote :: t := by simp
    have hnone : '\n' ∉ s := fun h => hfeed (by simp [h])
    rw [hcut]
    exact .quoted hquote (hs.mono (fun c hc _ h => hnone (h ▸ hc)) fun _ _ _ => trivial) ht
  | parenthesis hc => exact absurd rfl (hflat _ hc)
  | ordinary _ htext => exact enclosed_of_ordinary htext ht

theorem enclosed_of_spaced {ls : List Lexeme} {body : Text} (hspaced : Spaced ls body)
    (hshaped : ∀ l ∈ ls, l.Shaped) (hflat : ∀ l ∈ ls, ∀ c, c = '(' ∨ c = ')' → l ≠ .mark c)
    (hfeed : '\n' ∉ body) : Enclosed (fun _ => True) body := by
  have hblanks : ∀ {blanks : Text}, (∀ c ∈ blanks, isBlank c = true) → '\n' ∉ blanks →
      ∀ c ∈ blanks, Signature.IsOrdinary c :=
    fun hblank hnone c hc => ordinary_of_isBlank (hblank c hc) fun h => hnone (h ▸ hc)
  induction hspaced with
  | @nil blanks hblank =>
    have henclosed : Enclosed (fun _ => True) (blanks ++ []) :=
      enclosed_of_ordinary (hblanks hblank hfeed) .nil
    rwa [List.append_nil] at henclosed
  | @cons blanks text l ls hblank _ ih =>
    simp only [List.mem_append, not_or] at hfeed
    obtain ⟨⟨hfeedBlanks, hfeedToken⟩, hfeedText⟩ := hfeed
    have htext := ih (fun l' hl' => hshaped l' (List.mem_cons_of_mem l hl'))
      (fun l' hl' => hflat l' (List.mem_cons_of_mem l hl')) hfeedText
    rw [List.append_assoc]
    exact enclosed_of_ordinary (hblanks hblank hfeedBlanks)
      (enclosed_token (hshaped l List.mem_cons_self) (hflat l List.mem_cons_self) hfeedToken htext)

/-- An accepted body on one line can stand between parentheses. -/
theorem enclosed_of_declarations {body : Text} {ds : List Declaration}
    (h : Signature.declarations body = .ok ds) (hfeed : '\n' ∉ body) :
    Enclosed (fun _ => True) body := by
  obtain ⟨tokens, htokens, hflat⟩ := Signature.flat_of_declarations h
  refine enclosed_of_spaced (Signature.spaced_of_tokenize htokens) ?_ ?_ hfeed
  · exact List.forall_mem_map.mpr (Signature.shaped_of_tokenize htokens)
  · exact List.forall_mem_map.mpr hflat

/-! ## 3. Templates with one at sign -/

/-- A block has an at sign in each of its words. -/
theorem blocks_eq_nil {source : Text} (h : source.count '@' ≤ 1) : blocks source = [] := by
  refine (scanFrom_eq_nil_iff blockHere?_findsPieces source).mpr fun u v hsource _ => ?_
  refine Option.eq_none_iff_forall_ne_some.mpr fun a ha => ?_
  obtain ⟨after, _, htext, hv, _⟩ := blockHere?_eq_some ha
  have hopener : opener.count '@' = 1 := by decide
  have hcloser : blockCloser.count '@' = 1 := by decide
  rw [hsource, hv, htext] at h
  simp only [List.count_append, hopener, hcloser] at h
  omega

/-- Without blocks all parameter lists are extracted, and none is noted. -/
theorem extract_of_blocks_eq_nil {source : Text} (h : blocks source = []) :
    (extract source).log = [] ∧
      (extract source).value = sortOn (fun a => (a.start : Int)) (expressions source) := by
  constructor
  · simp [extract, List.partition_eq_filter_filter, h]
  · rw [extract_value, freeExpressions, h]
    simp

/-! ## 4. The annotation around an accepted body -/

/-- **Both scans agree on where a body ends**: an accepted body on one line is found as it is,
between the parentheses that are written around it. Neither its quoted texts nor its escapes move
the end, and nothing else is found. -/
theorem extract_around {before body after : Text} {ds : List Declaration}
    (hbody : Signature.declarations body = .ok ds) (hfeed : '\n' ∉ body) (hat : '@' ∉ body)
    (hbefore : '@' ∉ before) (hword : ∀ c, before.getLast? = some c → isWord c = false)
    (hafter : '@' ∉ after) :
    extract (before ++ "@expects(".toList ++ body ++ ")".toList ++ after)
      = { log := []
          value := [{ form := .expression, body, start := before.length,
                      stop := before.length + body.length + 10,
                      text := "@expects(".toList ++ body ++ ")".toList }] } := by
  have hlist : parameterList before.length body
      = { form := .expression, body, start := before.length,
          stop := before.length + body.length + 10,
          text := "@expects(".toList ++ body ++ ")".toList } := by
    have htext : opener ++ '(' :: body ++ [')'] = "@expects(".toList ++ body ++ ")".toList := rfl
    have hlength : ("@expects(".toList ++ body ++ ")".toList).length = body.length + 10 := by
      simp
    rw [parameterList, htext, hlength, Nat.add_assoc]
  have hmay : mayFollow before.getLast? = true := by
    cases hlast : before.getLast? with
    | none => rfl
    | some c =>
      have hne : c ≠ '@' := fun h => hbefore (h ▸ List.mem_of_getLast? hlast)
      simp [mayFollow, hword c hlast, hne]
  have hcut : before ++ "@expects(".toList ++ body ++ ")".toList ++ after
      = before ++ (parameterList before.length body).text ++ after := by
    rw [hlist]
    simp only [List.append_assoc]
  have hblocks : blocks (before ++ (parameterList before.length body).text ++ after) = [] := by
    refine blocks_eq_nil ?_
    rw [hlist]
    simp [List.count_eq_zero_of_not_mem, hbefore, hat, hafter]
  have hexpressions := expressions_enclosed hbefore hmay (enclosed_of_declarations hbody hfeed)
    hafter
  obtain ⟨hlog, hvalue⟩ := extract_of_blocks_eq_nil hblocks
  rw [hexpressions] at hvalue
  rw [hcut, ← hlist]
  calc extract (before ++ (parameterList before.length body).text ++ after)
      = ⟨(extract _).log, (extract _).value⟩ := rfl
    _ = ⟨[], [parameterList before.length body]⟩ := by rw [hlog, hvalue]; rfl

/-- A body with parentheses, quotes and backslashes inside its strings and outside. -/
def intricateBody : Text :=
  "?\\App\\User $u = null, string $s = \"a)(\\\"'\", $t = ')it\\'s\"',".toList

/-- What it declares. -/
def intricateDeclarations : List Declaration :=
  [{ name := "u".toList, required := false, type := some (.ofClass "App.User".toList),
     default := some .null, nullable := true },
   { name := "s".toList, required := false, type := some (.primitive .string),
     default := some (.string "a)(\"'".toList) },
   { name := "t".toList, required := false, default := some (.string ")it's\"".toList) }]

theorem declarations_intricateBody :
    Signature.declarations intricateBody = .ok intricateDeclarations := by
  decide +kernel

/-- It is found as it is, in the middle of a quoted text and of parentheses. -/
theorem extract_around_intricateBody :
    Signature.declarations intricateBody = .ok intricateDeclarations ∧
      extract ("'(".toList ++ "@expects(".toList ++ intricateBody ++ ")".toList ++ "') \"".toList)
        = { log := []
            value := [{ form := .expression, body := intricateBody, start := 2, stop := 71,
                        text := "@expects(".toList ++ intricateBody ++ ")".toList }] } := by
  have hword : ∀ c, "'(".toList.getLast? = some c → isWord c = false := by
    intro c hc
    obtain rfl : '(' = c := Option.some.inj hc
    decide
  exact ⟨declarations_intricateBody, extract_around declarations_intricateBody (by decide)
    (by decide) (by decide) hword (by decide)⟩

end Annotation

end ViewContract
