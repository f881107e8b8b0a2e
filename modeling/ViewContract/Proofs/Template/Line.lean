/-
ViewContract.Proofs.Template.Line — the lines that are reported.

A refused template is reported with a line, and there are two ways to it. The search for raw code
takes the line from a token of the scan, which goes over the text with every line break made a
line feed. A refused annotation has an offset in the text as it was written, and the line feeds
before it are counted. The first is the line at which the text stands (`exists_lineAt_of_scan`).
The second is that line less the carriage returns that stand alone before the annotation, so the
two agree exactly where there are none (`refusal_lines`).

  §1 where the scan is, and what one step does to it.
  §2 whole scans.
  §3 the line of raw code, and the line of a refused annotation.
-/
import ViewContract.Proofs.Outcome
import ViewContract.Proofs.Text.Breaks
import ViewContract.Template.Preprocess

namespace ViewContract.Template

open ViewContract.Text
open ViewContract.Annotation (extract)

/-! ## 1. Steps -/

/-- Text that has been read and is in no token yet. -/
def Place.pending : Place → Text
  | .text read | .comment read | .raw read => read.reverse
  | .tag _ _ => []

/-- A token stands in a text at a place whose line is its own. -/
def Token.StandsIn (whole : Text) (t : Token) : Prop :=
  ∃ before, before ++ t.text <+: whole ∧ t.line = lineFeeds before + 1

/-- A scan of a text has only `rest` before it, and `line` is the line on which the pending text
begins. -/
def Reaches (whole : Text) (line : Nat) (place : Place) (rest : Text) : Prop :=
  ∃ done, whole = done ++ (place.pending ++ rest) ∧ line = lineFeeds done + 1

theorem lineFeeds_append (s t : Text) : lineFeeds (s ++ t) = lineFeeds s + lineFeeds t :=
  List.count_append

theorem lineFeeds_reverse (t : Text) : lineFeeds t.reverse = lineFeeds t :=
  List.count_reverse

theorem pending_ofOpening (kind : TokenKind) : (Place.ofOpening kind).pending = [] := by
  cases kind <;> rfl

/-- The text before an opening is a piece of what was read, the blanks at its end apart. -/
theorem prefix_keptText (read : Text) (sign : Option Char) :
    keptText read sign <+: read.reverse := by
  rw [keptText]
  split
  · rw [trimEnd, dropEndWhile, List.reverse_reverse, List.reverse_prefix]
    exact List.dropWhile_suffix _
  · exact List.prefix_refl _

section steps

variable {whole done ahead : Text} {line : Nat} {place : Place}

/-- A token of the text ahead, with nothing pending. -/
theorem stands_mark (hwhole : whole = done ++ ahead) (hline : line = lineFeeds done + 1)
    (kind : TokenKind) (length : Nat) (hplace : place.pending = []) :
    (⟨line, kind, ahead.take length⟩ : Token).StandsIn whole ∧
      Reaches whole (line + lineFeeds (ahead.take length)) place (ahead.drop length) := by
  have hcut : whole = (done ++ ahead.take length) ++ ahead.drop length := by
    rw [List.append_assoc, List.take_append_drop, hwhole]
  refine ⟨⟨done, ⟨_, hcut.symm⟩, hline⟩, done ++ ahead.take length, ?_, ?_⟩
  · rw [hplace, List.nil_append]
    exact hcut
  · rw [lineFeeds_append]
    omega

/-- The pending text as a token, and behind it one of the text ahead. -/
theorem stands_data {read kept : Text} (hwhole : whole = done ++ (read.reverse ++ ahead))
    (hline : line = lineFeeds done + 1) (hkept : kept <+: read.reverse) (first second : TokenKind)
    (length : Nat) (hplace : place.pending = []) :
    let tokens : List Token :=
      [⟨line, first, kept⟩, ⟨line + lineFeeds read, second, ahead.take length⟩]
    (∀ t ∈ tokens, t.StandsIn whole) ∧
      Reaches whole (lineAfter line tokens) place (ahead.drop length) := by
  intro tokens
  have hread : line + lineFeeds read = lineFeeds (done ++ read.reverse) + 1 := by
    rw [lineFeeds_append, lineFeeds_reverse]
    omega
  rw [← List.append_assoc] at hwhole
  obtain ⟨hmark, hreaches⟩ := stands_mark hwhole hread second length hplace
  refine ⟨?_, hreaches⟩
  intro t ht
  rcases List.mem_cons.mp ht with rfl | ht
  · refine ⟨done, ?_, hline⟩
    rw [hwhole]
    exact ((List.prefix_append_right_inj done).mpr hkept).trans (List.prefix_append _ _)
  · rw [List.mem_singleton.mp ht]
    exact hmark

/-- In a tag a lexeme or the end of the tag is the only token of a step, and nothing is pending. -/
theorem stands_tag {env : Environment} {kind : TagKind} {due : List Char} {before : Option Char}
    {position : Nat} {c : Char} {rest : Text} {s : Step}
    (hreaches : Reaches whole line (.tag kind due) (c :: rest))
    (hstep : step env before line position (.tag kind due) c rest = .ok s) :
    (∀ t ∈ s.tokens, t.StandsIn whole) ∧
      Reaches whole (lineAfter line s.tokens) s.place ((c :: rest).drop s.length) := by
  obtain ⟨done, hwhole, hline⟩ := hreaches
  have hsingle : ∀ (token : TokenKind) (length : Nat) (place : Place), place.pending = [] →
      (∀ t ∈ [(⟨line, token, (c :: rest).take length⟩ : Token)], t.StandsIn whole) ∧
        Reaches whole (line + lineFeeds ((c :: rest).take length)) place
          ((c :: rest).drop length) := by
    intro token length place hplace
    obtain ⟨hmark, hreaches⟩ := stands_mark hwhole hline token length hplace
    exact ⟨List.forall_mem_singleton.mpr hmark, hreaches⟩
  simp only [step, stepInTag] at hstep
  split at hstep
  · obtain rfl := Except.ok.inj hstep
    exact hsingle _ _ _ rfl
  · split at hstep
    · cases hstep
    · split at hstep
      · obtain ⟨due', _, hstep⟩ := exists_of_bind_eq_ok hstep
        obtain rfl := Except.ok.inj hstep
        exact hsingle _ _ _ rfl
      · obtain rfl := Except.ok.inj hstep
        exact hsingle _ _ _ rfl

/-- **One step**: each of its tokens stands on its line, and the scan goes on from a place whose
line it knows. -/
theorem step_stands {env : Environment} {before : Option Char} {position : Nat} {c : Char}
    {rest : Text} {s : Step} (hreaches : Reaches whole line place (c :: rest))
    (hstep : step env before line position place c rest = .ok s) :
    (∀ t ∈ s.tokens, t.StandsIn whole) ∧
      Reaches whole (lineAfter line s.tokens) s.place ((c :: rest).drop s.length) := by
  obtain ⟨done, hwhole, hline⟩ := hreaches
  have hread : ∀ (read : Text) (place : Place), place.pending = (c :: read).reverse →
      whole = done ++ (read.reverse ++ (c :: rest)) → Reaches whole line place rest := by
    intro read place hpending hwhole
    refine ⟨done, ?_, hline⟩
    rw [hpending, hwhole]
    simp
  cases place with
  | text read =>
    obtain rfl := Except.ok.inj hstep
    simp only [stepInText]
    cases opening? env before (c :: rest) with
    | none => exact ⟨List.forall_mem_nil _, hread read _ rfl hwhole⟩
    | some o =>
      exact stands_data hwhole hline (prefix_keptText read o.sign) _ _ _ (pending_ofOpening o.kind)
  | comment read =>
    obtain rfl := Except.ok.inj hstep
    simp only [stepInComment]
    cases signedEndLength? env.commentEnd (c :: rest) with
    | none => exact ⟨List.forall_mem_nil _, hread read _ rfl hwhole⟩
    | some length => exact stands_data hwhole hline (List.prefix_refl _) _ _ _ rfl
  | raw read =>
    obtain rfl := Except.ok.inj hstep
    simp only [stepInRaw]
    cases rawEnd? env (c :: rest) with
    | none => exact ⟨List.forall_mem_nil _, hread read _ rfl hwhole⟩
    | some o => exact stands_data hwhole hline (prefix_keptText read o.sign) _ _ _ rfl
  | tag kind due => exact stands_tag ⟨done, hwhole, hline⟩ hstep

/-- The steps at one character. -/
theorem turn_stands (env : Environment) (before : Option Char) (position : Nat) {c : Char}
    {rest : Text} (turns : Nat) : ∀ {line : Nat} {place : Place},
    Reaches whole line place (c :: rest) →
    let turn := turnAt env before position c rest turns line place
    (∀ t ∈ turn.found.tokens, t.StandsIn whole) ∧
      ∀ o, turn.onward = some o →
        0 < o.length ∧ Reaches whole o.line o.place ((c :: rest).drop o.length) := by
  induction turns with
  | zero =>
    intro line place _ turn
    refine ⟨List.forall_mem_nil _, ?_⟩
    rintro o ⟨⟩
  | succ turns ih =>
    intro line place hreaches turn
    simp only [turn, turnAt]
    cases hstep : step env before line position place c rest with
    | error cause =>
      refine ⟨List.forall_mem_nil _, ?_⟩
      rintro o ⟨⟩
    | ok s =>
      obtain ⟨htokens, honward⟩ := step_stands hreaches hstep
      by_cases hlength : 0 < s.length
      · simp only [if_pos hlength]
        refine ⟨fun t ht => ?_, ?_⟩
        · rw [after_eq, List.append_nil] at ht
          exact htokens t (List.mem_filter.mp ht).1
        · rintro o ho
          obtain rfl := Option.some.inj ho
          exact ⟨hlength, honward⟩
      · simp only [if_neg hlength]
        have hstays : Reaches whole (lineAfter line s.tokens) s.place (c :: rest) := by
          rwa [Nat.eq_zero_of_not_pos hlength, List.drop_zero] at honward
        obtain ⟨hlater, honward⟩ := ih hstays
        refine ⟨fun t ht => ?_, honward⟩
        rw [after_eq] at ht
        rcases List.mem_append.mp ht with ht | ht
        · exact htokens t (List.mem_filter.mp ht).1
        · exact hlater t ht

end steps

/-! ## 2. Scans -/

section scans

variable {env : Environment} {whole : Text}

/-- What the end of a template adds. -/
theorem stands_atEnd {line : Nat} {place : Place} (hreaches : Reaches whole line place []) :
    ∀ t ∈ (atEnd env line place).tokens, t.StandsIn whole := by
  obtain ⟨done, hwhole, hline⟩ := hreaches
  intro t ht
  cases place with
  | text read =>
    simp only [atEnd, after_eq, List.append_nil] at ht
    rw [List.mem_singleton.mp (List.mem_filter.mp ht).1]
    exact ⟨done, ⟨[], by rw [hwhole]; simp [Place.pending]⟩, hline⟩
  | comment read => cases ht
  | raw read => cases ht
  | tag kind due =>
    simp only [atEnd] at ht
    split at ht
    · rw [List.mem_singleton.mp ht]
      exact ⟨done, ⟨[], by rw [hwhole]; simp [Place.pending]⟩, hline⟩
    · cases ht

/-- **A whole scan**: every token stands on its line. -/
theorem stands_scanFrom {t : Text} : ∀ {before : Option Char} {line position covered : Nat}
    {place : Place}, Reaches whole line place (t.drop covered) →
    ∀ token ∈ (scanFrom env before line position covered place t).tokens, token.StandsIn whole := by
  induction t with
  | nil =>
    intro before line position covered place hreaches
    rw [List.drop_nil] at hreaches
    exact stands_atEnd hreaches
  | cons c rest ih =>
    intro before line position covered place hreaches
    cases covered with
    | succ covered => exact ih hreaches
    | zero =>
      obtain ⟨hfound, honward⟩ := turn_stands env before position 3 hreaches
      rw [scanFrom]
      split
      · exact hfound
      · rename_i o ho
        obtain ⟨hlength, hlater⟩ := honward o ho
        intro token htoken
        rw [after_eq] at htoken
        rcases List.mem_append.mp htoken with htoken | htoken
        · exact hfound token (List.mem_filter.mp htoken).1
        · -- the first character is taken, and the others that the token covers
          obtain ⟨length, hsucc⟩ := Nat.exists_eq_succ_of_ne_zero (Nat.ne_of_gt hlength)
          rw [hsucc, Nat.succ_eq_add_one, List.drop_succ_cons] at hlater
          rw [hsucc, Nat.succ_eq_add_one, Nat.add_sub_cancel] at htoken
          exact ih hlater token htoken

/-- Every token of a template stands on its line, in the template as it is scanned. -/
theorem stands_scan {source : Text} :
    ∀ t ∈ (scan env source).tokens, t.StandsIn (prepare source) :=
  stands_scanFrom ⟨[], rfl, rfl⟩

theorem prefix_prepare (source : Text) : prepare source <+: unifyLineFeeds source := by
  rw [prepare]
  split
  · exact List.dropLast_prefix _
  · exact List.prefix_refl _

/-- **Tokens and lines**: every token of a template is on the line of the offset at which it
stands in the template as it was written. -/
theorem exists_lineAt_of_scan {source : Text} {t : Token} (ht : t ∈ (scan env source).tokens) :
    ∃ offset, t.text <+: unifyLineFeeds (source.drop offset) ∧ t.line = lineAt source offset := by
  obtain ⟨before, hprefix, hline⟩ := stands_scan t ht
  obtain ⟨rest, hcut⟩ := hprefix.trans (prefix_prepare source)
  rw [List.append_assoc] at hcut
  obtain ⟨first, last, rfl, hfirst, hlast⟩ := exists_cut_of_unifyLineFeeds hcut.symm
  refine ⟨first.length, ?_, ?_⟩
  · rw [List.drop_left, hlast]
    exact List.prefix_append _ _
  · rw [hline, lineAt, List.take_left, ← lineFeeds_unifyLineFeeds, hfirst]

end scans

/-! ## 3. Refusals -/

theorem exists_do_of_firstDoFrom {line : Nat} {tokens : List Token} : ∀ {opened : Bool},
    firstDoFrom opened tokens = some line → ∃ t ∈ tokens, isDo t = true ∧ t.line = line := by
  induction tokens with
  | nil => exact nofun
  | cons t rest ih =>
    intro opened h
    rw [firstDoFrom] at h
    split at h
    · obtain ⟨u, hu, hfound⟩ := ih h
      exact ⟨u, List.mem_cons_of_mem t hu, hfound⟩
    · split at h
      · rename_i hdo
        exact ⟨t, List.mem_cons_self, (Bool.and_eq_true_iff.mp hdo).2, Option.some.inj h⟩
      · obtain ⟨u, hu, hfound⟩ := ih h
        exact ⟨u, List.mem_cons_of_mem t hu, hfound⟩

section refusals

variable {env : Environment} {settings : Settings} {origin : Origin} {source : Text}

/-- Raw code is reported on the line of the word `do`. -/
theorem lineAt_of_findRawCode {line : Nat} (h : findRawCode env source = .ok (some line)) :
    ∃ offset, "do".toList <+: source.drop offset ∧ line = lineAt source offset := by
  have hfirst : firstDo (scan env source).tokens = some line := by
    rw [findRawCode] at h
    split at h
    · rename_i hfirst
      rw [hfirst, Option.some.inj (Except.ok.inj h)]
    · cases h
    · cases h
  obtain ⟨t, ht, hdo, rfl⟩ := exists_do_of_firstDoFrom hfirst
  obtain ⟨offset, ⟨rest, htext⟩, hline⟩ := exists_lineAt_of_scan ht
  have hword : t.text = "do".toList := by
    rw [isDo, Bool.and_eq_true_iff] at hdo
    exact of_decide_eq_true hdo.2
  rw [hword] at htext
  obtain ⟨after, hfirst, hafter⟩ := head_of_unifyLineFeeds (by decide) htext.symm
  obtain ⟨last, rfl, _⟩ := head_of_unifyLineFeeds (by decide) hafter
  exact ⟨offset, ⟨last, hfirst.symm⟩, hline⟩

/-- What the search for raw code refuses is no annotation. -/
theorem cause_of_checkRawCode {refusal : Refusal}
    (h : checkRawCode env settings origin source = .error (.refused refusal)) (fault : UsageFault) :
    refusal.cause ≠ .usage fault := by
  unfold checkRawCode at h
  split at h
  · cases h
  · split at h
    · cases h
    · cases h
      nofun
    · cases h
      nofun

/-- An annotation is refused where raw code is not in the way and the compilation refuses it, on
the line of its offset. -/
theorem preprocess_eq_usage_iff {refusal : Refusal} {fault : UsageFault} :
    (preprocess env settings origin source).value = .error (.refused refusal) ∧
        refusal.cause = .usage fault ↔
      checkRawCode env settings origin source = .ok () ∧
        (compile settings env.delimiters source).value = .error (.usage fault) ∧
        refusal = { cause := .usage fault, line := lineOfOffset source fault.offset, origin } := by
  unfold preprocess
  cases hraw : checkRawCode env settings origin source with
  | error e =>
    refine iff_of_false ?_ (fun h => nomatch h.1)
    rintro ⟨hrefused, hcause⟩
    obtain rfl := Except.error.inj hrefused
    exact cause_of_checkRawCode hraw fault hcause
  | ok _ =>
    dsimp only
    cases (compile settings env.delimiters source).value with
    | ok out => exact iff_of_false (fun h => nomatch h.1) (fun h => nomatch h.2.1)
    | error e =>
      cases e with
      | range e => exact iff_of_false (fun h => nomatch h.1) (fun h => nomatch h.2.1)
      | overlap e => exact iff_of_false (fun h => nomatch h.1) (fun h => nomatch h.2.1)
      | usage e =>
        constructor
        · rintro ⟨hrefused, hcause⟩
          obtain rfl := TemplateError.refused.inj (Except.error.inj hrefused)
          obtain rfl := RefusalCause.usage.inj hcause
          exact ⟨rfl, rfl, rfl⟩
        · rintro ⟨_, hcompile, rfl⟩
          obtain rfl := CompileError.usage.inj (Except.error.inj hcompile)
          exact ⟨rfl, rfl⟩

/-- The line of an offset by line feeds alone is too small by the carriage returns that stand
alone before it. -/
theorem lineOfOffset_add (source : Text) (offset : Nat) :
    lineOfOffset source offset + loneReturns (source.take offset) = lineAt source offset := by
  rw [lineOfOffset, lineAt, ← lineFeeds_add_loneReturns]
  omega

end refusals

/-- **The lines of refusals**: raw code is reported on its line, where line feeds, carriage
returns and pairs of both end lines. A template in which an annotation cannot be read is refused
for the first such annotation, and the line that is reported is less than the line of its first
character by the carriage returns that stand alone before it. So both lines are counted alike
exactly if each carriage return before the annotation has a line feed behind it. -/
theorem refusal_lines (env : Environment) (settings : Settings) (origin : Origin) (source : Text) :
    (∀ line, findRawCode env source = .ok (some line) →
      ∃ offset, "do".toList <+: source.drop offset ∧ line = lineAt source offset) ∧
    ∀ fault,
      ((∃ refusal, (preprocess env settings origin source).value = .error (.refused refusal) ∧
          refusal.cause = .usage fault) ↔
        checkRawCode env settings origin source = .ok () ∧
          (compile settings env.delimiters source).value = .error (.usage fault)) ∧
      ∀ refusal, (preprocess env settings origin source).value = .error (.refused refusal) →
        refusal.cause = .usage fault →
        ∃ a ∈ (extract source).value, fault.offset = a.start ∧ fault.text = a.text ∧
          refusal.line + loneReturns (source.take a.start) = lineAt source a.start ∧
          (refusal.line = lineAt source a.start ↔
            ∀ before after, source.take a.start = before ++ '\r' :: after →
              after.head? = some '\n') := by
  refine ⟨fun line => lineAt_of_findRawCode, fun fault => ⟨?_, ?_⟩⟩
  · constructor
    · rintro ⟨refusal, h⟩
      obtain ⟨hraw, hcompile, _⟩ := preprocess_eq_usage_iff.mp h
      exact ⟨hraw, hcompile⟩
    · rintro ⟨hraw, hcompile⟩
      exact ⟨_, preprocess_eq_usage_iff.mpr ⟨hraw, hcompile, rfl⟩⟩
  · intro refusal hrefused hcause
    obtain ⟨_, hcompile, rfl⟩ := preprocess_eq_usage_iff.mp ⟨hrefused, hcause⟩
    obtain ⟨_, first, a, later, hcut, _, hcode⟩ := compile_eq_error_iff.mp hcompile
    obtain ⟨htext, hoffset⟩ := Annotation.text_of_code_eq_usage hcode
    have hmem : a ∈ (extract source).value := by
      rw [hcut]
      exact List.mem_append_right first List.mem_cons_self
    have hline := lineOfOffset_add source a.start
    refine ⟨a, hmem, hoffset, htext, ?_, ?_⟩
    · rw [hoffset]
      exact hline
    · rw [hoffset, ← loneReturns_eq_zero_iff]
      dsimp only
      omega

/-- Raw code and an annotation that cannot be read, both on the third line. -/
def thirdLine : Text :=
  "one\r\ntwo\n\x7b% do x %\x7d @expects(int $)".toList

/-- Both are reported on the third line. -/
theorem refusal_lines_of_thirdLine :
    (∃ offset, "do".toList <+: thirdLine.drop offset ∧ 3 = lineAt thirdLine offset) ∧
      ∃ refusal, (preprocess {} {} {} thirdLine).value = .error (.refused refusal) ∧
        refusal.line = 3 ∧
          ∃ a ∈ (extract thirdLine).value, refusal.line = lineAt thirdLine a.start := by
  have hraw : findRawCode {} thirdLine = .ok (some 3) := by decide +kernel
  have hrefused : (preprocess {} {} {} thirdLine).value = .error (.refused
      { cause := .usage (.grammar (.namelessVariable 4) "@expects(int $)".toList 20), line := 3,
        origin := {} }) := by
    decide +kernel
  obtain ⟨hfound, hannotation⟩ := refusal_lines {} {} {} thirdLine
  obtain ⟨_, hlines⟩ := hannotation (.grammar (.namelessVariable 4) "@expects(int $)".toList 20)
  obtain ⟨a, ha, hoffset, _, hline, _⟩ := hlines _ hrefused rfl
  have hstart : 20 = a.start := hoffset
  have hpaired : loneReturns (thirdLine.take a.start) = 0 := by
    rw [← hstart]
    decide +kernel
  rw [hpaired, Nat.add_zero] at hline
  exact ⟨hfound 3 hraw, _, hrefused, rfl, a, ha, hline⟩

/-- Raw code and an annotation that cannot be read, both behind a carriage return that stands
alone. -/
def loneReturn : Text :=
  "\r\x7b% do x %\x7d @expects(int $)".toList

/-- The carriage return ends a line for the raw code, and none for the annotation. -/
theorem refusal_line_of_loneReturn :
    findRawCode {} loneReturn = .ok (some 2) ∧
      ∃ refusal fault, (preprocess {} {} {} loneReturn).value = .error (.refused refusal) ∧
        refusal.cause = .usage fault ∧ refusal.line = 1 ∧ lineAt loneReturn fault.offset = 2 :=
  ⟨by decide +kernel,
    { cause := .usage (.grammar (.namelessVariable 4) "@expects(int $)".toList 12), line := 1,
      origin := {} },
    .grammar (.namelessVariable 4) "@expects(int $)".toList 12,
    by decide +kernel, rfl, rfl, by decide +kernel⟩

end ViewContract.Template
