/-
ViewContract.Proofs.Entry — both notations read an entry alike.

What both notations can say they say alike: an entry is read as the same declaration from a
parameter list and from a doc comment, although the two are cut, classified and converted by
different functions.

  §1 the parameter list. The text of an entry is its lexemes with blanks between them.
  §2 the doc comment. The default is read as its type asks.
  §3 entries in either notation (`entries_read_alike`).
-/
import ViewContract.Compile
import ViewContract.Proofs.Docblock.Line
import ViewContract.Proofs.Guard.Written
import ViewContract.Proofs.Signature.Listed

namespace ViewContract

open Text Signature

namespace Entry

/-! ## 1. The parameter list -/

theorem spells_default {d : Default} {type : Text} (h : d.Fits type) :
    Spells d.lexemes d.literal := by
  cases d with
  | null => exact .null
  | int negative magnitude => exact .int negative magnitude h.2
  | text value => exact .string value

/-- An entry is a parameter that says its declaration. -/
theorem declares_entry {e : Entry} (he : e.WellFormed) : e.parameter.Declares e.declaration := by
  refine ⟨⟨he.name, fun t ht => ?_, fun _ => nofun⟩, he.notReserved, ?_, rfl⟩
  · obtain rfl := Option.some.inj ht
    exact Docblock.className_of_shared he.type
  · cases hd : e.default with
    | none => simp [parameter, declaration, Parameter.declaration, hd]
    | some d =>
      simp only [parameter, declaration, Parameter.declaration, hd, Option.map_some]
      exact .some (spells_default (he.default d hd))

/-- The text of an entry is its lexemes, with a blank before the variable and around the equals
sign. -/
theorem spaced_parameterText (e : Entry) : Spaced e.parameter.lexemes e.parameterText := by
  have hblank : isBlank ' ' = true := by decide
  have hdefault : Spaced ((e.parameter.default.map (.mark '=' :: ·)).getD [])
      ((e.default.map Default.quotedText).elim [] ([' ', '=', ' '] ++ ·)) := by
    cases hd : e.default with
    | none =>
      rw [parameter, hd]
      exact .nil nofun
    | some d =>
      rw [parameter, hd]
      exact .blank hblank (.next (.blank hblank (spaced_flatMap d.lexemes)))
  have htype : Spaced (⟨.name, e.type⟩ :: .ofName e.name ::
      (e.parameter.default.map (.mark '=' :: ·)).getD [])
      (e.type ++ ([' ', '$'] ++ e.name ++
        (e.default.map Default.quotedText).elim [] ([' ', '=', ' '] ++ ·))) :=
    .next (.blank hblank (.next hdefault))
  have htext : e.parameterText = (if e.nullable then ['?'] else []) ++ (e.type ++
      ([' ', '$'] ++ e.name ++
        (e.default.map Default.quotedText).elim [] ([' ', '=', ' '] ++ ·))) := by
    rw [parameterText, Signature.parameterText_eq, typeText]
    simp only [List.append_assoc]
  rw [htext]
  cases hn : e.nullable with
  | false => simpa [Parameter.lexemes, parameter, hn] using htype
  | true =>
    have h : Spaced (.mark '?' :: _) (['?'] ++ _) := htype.next
    simpa [Parameter.lexemes, parameter, hn] using h

/-- Entries with a comma between them, which may have blanks around it. -/
theorem spaced_listText {before after : Text} (hbefore : ∀ c ∈ before, isBlank c = true)
    (hafter : ∀ c ∈ after, isBlank c = true) (es : List Entry) :
    Spaced (listLexemes false (es.map parameter)) (listText (before ++ ',' :: after) es) := by
  have hcomma : Spaced [.mark ','] (before ++ [','] ++ after) := .cons hbefore (.nil hafter)
  induction es with
  | nil => exact .nil nofun
  | cons e es ih =>
    cases es with
    | nil => simpa [listText, listLexemes] using spaced_parameterText e
    | cons e' es =>
      have h := ((spaced_parameterText e).append hcomma).append ih
      simpa [listText, listLexemes] using h

/-! ## 2. The doc comment -/

/-- A default has no closing parenthesis and no line break where a doc comment has it. -/
theorem mem_rawText {d : Default} {type : Text} (h : d.Fits type) {c : Char} (hc : c ∈ d.rawText) :
    c ≠ ')' ∧ isLineBreak c = false := by
  cases d with
  | null =>
    have hall : ∀ c ∈ "null".toList, c ≠ ')' ∧ isLineBreak c = false :=
      forall_mem_of_all (by decide)
    exact hall c hc
  | text value =>
    obtain ⟨_, hparen, hbreak, _⟩ := h
    exact ⟨fun h => hparen (h ▸ hc), hbreak c hc⟩
  | int negative magnitude =>
    rcases List.mem_append.mp hc with hc | hc
    · cases negative with
      | false => exact absurd hc List.not_mem_nil
      | true =>
        obtain rfl := List.mem_singleton.mp hc
        decide
    · have hpart := isIdentifierPart_of_isDigit (isDigit_of_mem_toDigits hc)
      exact ⟨ne_of_isIdentifierPart hpart (by decide),
        not_isLineBreak_of_not_blank (not_blank_of_isIdentifierPart hpart)⟩

/-- A default is read as its type asks. -/
theorem ofText_rawText {d : Default} {type : Text} (h : d.Fits type) :
    Literal.ofText (trim (' ' :: d.rawText)) (some (TypeRef.ofName type)) =
      .ok (some d.literal) := by
  rw [trim_cons (by decide)]
  cases d with
  | null => rfl
  | text value =>
    obtain ⟨rfl, _, _, htrim, hnull⟩ := h
    rw [Default.rawText, htrim, Literal.ofText.eq_def, if_neg hnull]
    rfl
  | int negative magnitude =>
    obtain ⟨rfl, hdigits⟩ := h
    have hsign : Number.IsSign (if negative then ['-'] else []) := by
      cases negative
      · exact .inl rfl
      · exact .inr (.inr rfl)
    have hunsigned := Number.unsigned_digits magnitude
    rw [Default.rawText, Number.trim_signed hsign hunsigned, Literal.ofText.eq_def,
      if_neg (Number.lower_signed_ne_null hsign hunsigned)]
    have hread := Number.read_signed hsign hunsigned (Number.read_digits hdigits)
    have htype : TypeRef.ofName Kind.int.name.toList = .primitive .int := rfl
    simp only [htype, hread]
    cases negative <;> rfl

/-- The line of an entry declares what the entry stands for. -/
theorem declaration_tag {e : Entry} (he : e.WellFormed) (number : Nat) :
    Docblock.Tag.declaration ⟨"param".toList,
      Docblock.paramText e.typeText e.name (e.default.map Default.rawText), number⟩
        = .ok e.declaration := by
  have hmarker : ∀ value, e.default.map Default.rawText = some value → ')' ∉ value := by
    intro value hvalue hmem
    obtain ⟨d, hd, rfl⟩ := Option.map_eq_some_iff.mp hvalue
    exact (mem_rawText (he.default d hd) hmem).1 rfl
  have hdefault : Docblock.defaultOfMarker ((e.default.map Default.rawText).map (' ' :: ·))
      (some (TypeRef.ofName e.type)) = .ok (e.default.map Default.literal) := by
    cases hd : e.default with
    | none => rfl
    | some d =>
      have hread := ofText_rawText (he.default d hd)
      simp [Docblock.defaultOfMarker, hread, Except.mapError]
  have hrequired : ((e.default.map Default.rawText).isNone && !e.nullable)
      = (e.default.map Default.literal).isNone := by
    have hnullable := he.nullable
    cases hd : e.default with
    | some d => rfl
    | none =>
      have hn : e.nullable = false := by simpa [hd] using hnullable
      rw [hn]
      rfl
  have hbody := inBody_declaration (declares_entry he).toReadable he.notReserved
    (e.default.map Default.literal)
  rw [typeText, Docblock.declaration_written he.type e.nullable he.name hmarker number, hdefault,
    hrequired]
  exact hbody

theorem declarationsOf_paramTags {es : List Entry} (hes : ∀ e ∈ es, e.WellFormed) (number : Nat) :
    Docblock.declarationsOf (Docblock.paramTags number (es.map fun e =>
      Docblock.paramText e.typeText e.name (e.default.map Default.rawText)))
        = .ok (es.map declaration) := by
  induction es generalizing number with
  | nil => rfl
  | cons e es ih =>
    have hfirst := declaration_tag (hes e List.mem_cons_self) number
    have hothers := ih (fun e' he' => hes e' (List.mem_cons_of_mem e he')) (number + 1)
    rw [List.map_cons, Docblock.paramTags, Docblock.declarationsOf,
      if_pos (Docblock.declares_param _ _), hfirst, hothers]
    rfl

/-- What stands behind the names of the tags when entries are a doc comment. -/
theorem blockText_eq (es : List Entry) : blockText es = ['\n'].intercalate ((es.map fun e =>
    Docblock.paramText e.typeText e.name (e.default.map Default.rawText)).map
      ("@param".toList ++ ·)) := by
  rw [blockText, List.map_map]
  congr 1
  exact List.map_congr_left fun e _ => Docblock.lineText_eq _ _ _

theorem declarations_blockText {es : List Entry} (hes : ∀ e ∈ es, e.WellFormed)
    (hnames : ((es.map declaration).map Declaration.name).Nodup) :
    (Docblock.declarations (blockText es)).value = .ok (es.map declaration) := by
  have hplain : ∀ rest ∈ es.map fun e =>
      Docblock.paramText e.typeText e.name (e.default.map Default.rawText),
        Docblock.Plain rest := by
    intro rest hrest
    obtain ⟨e, he, rfl⟩ := List.mem_map.mp hrest
    have hwell := hes e he
    refine Docblock.plain_paramText (Docblock.isTypeChar_typeText
      (Docblock.className_of_shared hwell.type) e.nullable) hwell.name fun value hvalue c hc => ?_
    obtain ⟨d, hd, rfl⟩ := Option.map_eq_some_iff.mp hvalue
    exact (mem_rawText (hwell.default d hd) hc).2
  have htags := Docblock.tags_plain hplain
  rw [← blockText_eq] at htags
  simp [Docblock.declarations, htags, declarationsOf_paramTags hes 1, distinct_eq_ok hnames, bind,
    Except.bind]

/-! ## 3. Both notations -/

/-- The default of an entry can be written into a template. -/
theorem short_declaration {es : List Entry} (hes : ∀ e ∈ es, e.WellFormed) {d : Declaration}
    (hd : d ∈ es.map declaration) : (d.default.getD .null).Short := by
  obtain ⟨e, he, rfl⟩ := List.mem_map.mp hd
  intro n hn
  cases hdefault : e.default with
  | none =>
    rw [declaration, Parameter.declaration, hdefault] at hn
    cases hn
  | some default =>
    have hfits := (hes e he).default default hdefault
    rw [declaration, Parameter.declaration, hdefault] at hn
    cases default with
    | null => cases hn
    | text value => cases hn
    | int negative magnitude =>
      obtain rfl := Literal.int.inj hn
      have habs : (if negative then -(magnitude : ℤ) else magnitude).natAbs = magnitude := by
        cases negative <;> simp
      rw [habs]
      exact hfits.2

/-- **Both notations read entries alike**: written as a parameter list with commas between them
and as a doc comment with one on each line, entries with distinct names are read as the same
declarations, the ones they stand for; so the guards of the two annotations are the same. -/
theorem entries_read_alike {es : List Entry} (hes : ∀ e ∈ es, e.WellFormed)
    (hnodup : (es.map Entry.name).Nodup) {before after : Text}
    (hbefore : ∀ c ∈ before, isBlank c = true) (hafter : ∀ c ∈ after, isBlank c = true) :
    Signature.declarations (listText (before ++ ',' :: after) es) = .ok (es.map declaration) ∧
      (Docblock.declarations (blockText es)).value = .ok (es.map declaration) ∧
      ∀ (δ : Delimiters) (a b : Annotation),
        a.form = .expression → a.body = listText (before ++ ',' :: after) es →
        b.form = .block → b.body = blockText es →
        ∃ code, a.code δ = .ok code ∧ b.code δ = .ok code := by
  have hnames : ((es.map declaration).map Declaration.name).Nodup := by
    rwa [List.map_map]
  have hlist : Signature.declarations (listText (before ++ ',' :: after) es)
      = .ok (es.map declaration) := by
    refine declarations_listed ?_ hnames (spaced_listText hbefore hafter es)
    rw [List.forall₂_map_left_iff, List.forall₂_map_right_iff]
    exact List.forall₂_same.mpr fun e he => declares_entry (hes e he)
  have hblock := declarations_blockText hes hnames
  refine ⟨hlist, hblock, fun δ a b haform habody hbform hbbody => ?_⟩
  obtain ⟨code, hcode⟩ := (exists_guardText_iff δ (es.map declaration)).mpr
    fun d hd _ => short_declaration hes hd
  refine ⟨code, ?_, ?_⟩
  · rw [a.code_of_read (by rw [haform, habody]; exact hlist), hcode]
    rfl
  · rw [b.code_of_read (by rw [hbform, hbbody]; exact hblock), hcode]
    rfl

/-- A text with quotes, a number below zero, a class that null is admitted to, and a variable that
is required. -/
theorem entries_read_alike_of_four :
    let es : List Entry := [
      { type := "string".toList, name := "title".toList,
        default := some (.text "so \"new\"".toList) },
      { type := "int".toList, name := "n".toList, default := some (.int true 5) },
      { nullable := true, type := "\\App\\User".toList, name := "user".toList,
        default := some .null },
      { type := "float".toList, name := "rate".toList }]
    let list := "string $title = \"so \\\"new\\\"\", int $n = -5, ".toList ++
      "?\\App\\User $user = null, float $rate".toList
    let block := "@param string $title (default: so \"new\")\n@param int $n (default: -5)\n".toList ++
      "@param ?\\App\\User $user (default: null)\n@param float $rate".toList
    listText ", ".toList es = list ∧ blockText es = block ∧
      Signature.declarations list = .ok (es.map declaration) ∧
      (Docblock.declarations block).value = .ok (es.map declaration) := by
  intro es list block
  have hlist : listText ", ".toList es = list := by decide +kernel
  have hblock : blockText es = block := by decide +kernel
  have h := @entries_read_alike es (by decide +kernel) (by decide) [] [' ']
    (List.forall_mem_nil _) (List.forall_mem_singleton.mpr (by decide))
  refine ⟨hlist, hblock, ?_, ?_⟩
  · rw [← hlist]
    exact h.1
  · rw [← hblock]
    exact h.2.1

end Entry

end ViewContract
