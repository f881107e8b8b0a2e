/-
ViewContract.Proofs.Signature.Listed — parameter lists are read back.

A list of declarations is written parameter by parameter, with any blanks between the lexemes,
and reading it gives the declarations again:

  §1 the lexemes of a list are a row: each is read as it is in front of the next.
  §2 the round trip (`declarations_written`).
-/
import ViewContract.Proofs.Annotation.Declared
import ViewContract.Proofs.Signature.Parameter

namespace ViewContract

open Text

namespace Signature

/-! ## 1. Rows -/

section rows

variable {ls : List Lexeme}

theorem closes_nil : Closes [] :=
  fun _ h => nomatch h

/-- A lexeme that begins with a mark which ends names and numbers. -/
theorem closes_cons {c : Char} (hc : c = '$' ∨ c = '=' ∨ c = ',') {l : Lexeme} {t : Text}
    (hl : l.text = c :: t) : Closes (l :: ls) := by
  intro next hnext t d hd
  obtain rfl := Option.some.inj hnext
  rw [hl] at hd
  obtain rfl := Option.some.inj hd
  exact .inr hc

/-- The lexemes of a literal in front of a row, and how they begin. -/
theorem row_spelled {ds : List Lexeme} {l : Literal} (h : Spells ds l) (hls : Closes ls)
    (hrow : Row ls) : Row (ds ++ ls) ∧
      ∀ next, (ds ++ ls).head? = some next → ∃ c, next.text.head? = some c ∧ c ≠ '>' := by
  cases h with
  | null =>
    have hname : ClassName ['n', 'u', 'l', 'l'] := isClassName_iff.mp (by decide)
    refine ⟨.word (fun ht => reads_name hname ht) hls hrow, fun next hnext => ?_⟩
    obtain rfl := Option.some.inj hnext
    exact ⟨'n', rfl, by decide⟩
  | string t =>
    refine ⟨.free (reads_quoted t) hrow, fun next hnext => ?_⟩
    obtain rfl := Option.some.inj hnext
    exact ⟨'"', rfl, by decide⟩
  | int negative n hn =>
    have hdigits : Row (⟨.number, Nat.toDigits 10 n⟩ :: ls) :=
      .word (fun ht => reads_grouped (Number.grouped_toDigits n) ht) hls hrow
    cases negative with
    | false =>
      refine ⟨hdigits, fun next hnext => ?_⟩
      obtain rfl := Option.some.inj hnext
      obtain ⟨c, rest, hcut⟩ := List.exists_cons_of_ne_nil (Nat.toDigits_ne_nil (n := n) (b := 10))
      have hc : c.isDigit = true := isDigit_of_mem_toDigits (by rw [hcut]; exact List.mem_cons_self)
      refine ⟨c, by rw [hcut]; rfl, ?_⟩
      rintro rfl
      exact absurd hc (by decide)
    | true =>
      refine ⟨.free (reads_mark (by simp)) hdigits, fun next hnext => ?_⟩
      obtain rfl := Option.some.inj hnext
      exact ⟨'-', rfl, by decide⟩

/-- The lexemes of a parameter in front of a row. -/
theorem row_parameter {p : Parameter} {d : Declaration} (hp : p.Declares d) (hls : Closes ls)
    (hrow : Row ls) : Row (p.lexemes ++ ls) := by
  have hvariable : Row (.ofName p.name :: ((p.default.map (.mark '=' :: ·)).getD [] ++ ls)) := by
    have hrel := hp.default
    cases hpd : p.default with
    | none => exact .word (fun ht => reads_variable hp.name ht) hls hrow
    | some ds =>
      cases hdd : d.default with
      | none =>
        rw [hpd, hdd] at hrel
        exact nomatch hrel
      | some l =>
        rw [hpd, hdd] at hrel
        obtain ⟨hspells⟩ := hrel
        obtain ⟨hdefault, hfirst⟩ := row_spelled hspells hls hrow
        exact .word (fun ht => reads_variable hp.name ht) (closes_cons (.inr (.inl rfl)) rfl)
          (.equals hfirst hdefault)
  have htype : Row (p.type.toList.map (⟨.name, ·⟩) ++
      .ofName p.name :: ((p.default.map (.mark '=' :: ·)).getD [] ++ ls)) := by
    cases htype : p.type with
    | none => exact hvariable
    | some type =>
      exact .word (fun ht => reads_name (hp.className type htype) ht) (closes_cons (.inl rfl) rfl)
        hvariable
  rw [Parameter.lexemes, List.append_assoc, List.append_assoc, List.cons_append]
  cases p.nullable with
  | false => exact htype
  | true => exact .free (reads_mark (by simp)) htype

theorem row_listed {ps : List Parameter} {ds : List Declaration}
    (h : List.Forall₂ Parameter.Declares ps ds) (trailing : Bool) :
    Row (listLexemes trailing ps) := by
  induction h with
  | nil => exact .nil
  | @cons p d ps ds hp _ ih =>
    obtain ⟨tail, hcut, htail⟩ := listLexemes_cons trailing p ps
    rw [hcut]
    rcases htail with ⟨rfl, _⟩ | rfl
    · exact row_parameter hp closes_nil .nil
    · exact row_parameter hp (closes_cons (.inr (.inr rfl)) rfl) (.free (reads_mark (by simp)) ih)

theorem length_le_listLexemes (trailing : Bool) (ps : List Parameter) :
    ps.length ≤ (listLexemes trailing ps).length := by
  induction ps with
  | nil => exact Nat.zero_le _
  | cons p ps ih =>
    obtain ⟨tail, hcut, htail⟩ := listLexemes_cons trailing p ps
    have hpos : 0 < p.lexemes.length := List.length_pos_iff.mpr (lexemes_ne_nil p)
    rw [hcut, List.length_append, List.length_cons]
    rcases htail with ⟨_, rfl⟩ | rfl
    · exact Nat.le_add_right_of_le hpos
    · rw [List.length_cons]
      omega

end rows

/-! ## 2. The round trip -/

/-- Parameters are read as the declarations that they say, if their lexemes are. -/
theorem declarations_of_lexed {ps : List Parameter} {ds : List Declaration}
    (h : List.Forall₂ Parameter.Says ps ds) (hnodup : (ds.map Declaration.name).Nodup)
    {trailing : Bool} {body : Text} (hbody : Lexed (listLexemes trailing ps) body) :
    declarations body = .ok ds := by
  obtain ⟨tokens, htokens, hlexemes⟩ := tokenize_of_lexed hbody
  have hfuel : ps.length ≤ tokens.length := by
    rw [← List.length_map Token.lexeme, hlexemes]
    exact length_le_listLexemes trailing ps
  have hread : readParameters body.length stackRoom tokens.length tokens = .ok ds :=
    readParameters_listed body.length h (stackRoom - 1) hfuel hlexemes
  simp [declarations, htokens, Except.mapError, bind, Except.bind, hread, distinct_eq_ok hnodup]

/-- Parameters with blanks at will are read as the declarations that they say. -/
theorem declarations_listed {ps : List Parameter} {ds : List Declaration}
    (h : List.Forall₂ Parameter.Declares ps ds) (hnodup : (ds.map Declaration.name).Nodup)
    {trailing : Bool} {body : Text} (hbody : Spaced (listLexemes trailing ps) body) :
    declarations body = .ok ds :=
  declarations_of_lexed (h.imp fun _ _ => Parameter.Declares.says) hnodup
    ((row_listed h trailing).lexed hbody)

/-- The name of a type means the type. -/
theorem ofName_text {type : TypeRef} (h : type.Listable) : TypeRef.ofName type.text = type := by
  cases type with
  | primitive kind => cases kind <;> rfl
  | ofClass path =>
    obtain ⟨hpath, hkind⟩ := h
    rw [TypeRef.text, TypeRef.ofName, hkind, normalizePath_eq_self hpath]

theorem className_text {type : TypeRef} (h : type.Listable) : ClassName type.text := by
  cases type with
  | primitive kind => exact isClassName_iff.mp (by cases kind <;> decide)
  | ofClass path => exact className_of_isDottedPath h.1

theorem declares_parameter {d : Declaration} (h : d.Listable) : d.parameter.Declares d := by
  refine ⟨⟨h.name, fun t ht => ?_, fun hnullable htype => ?_⟩, h.notReserved, ?_, ?_⟩
  · obtain ⟨type, htype, rfl⟩ := Option.map_eq_some_iff.mp ht
    exact className_text (h.type type htype)
  · have huntyped := h.untyped (Option.map_eq_none_iff.mp htype)
    exact absurd (huntyped.symm.trans hnullable) Bool.false_ne_true
  · cases hd : d.default with
    | none => simp [Declaration.parameter, hd]
    | some l =>
      rw [Declaration.parameter, hd]
      exact .some (spells_of_listable (h.default l hd))
  · have htype : (d.type.map TypeRef.text).map TypeRef.ofName = d.type := by
      cases htype : d.type with
      | none => rfl
      | some type => rw [Option.map_some, Option.map_some, ofName_text (h.type type htype)]
    obtain ⟨name, required, type, default, nullable⟩ := d
    have hrequired : required = default.isNone := h.required
    simp only [Parameter.declaration, Declaration.parameter, htype, hrequired]

/-- **Reading undoes writing**: declarations with distinct names, written one after the other
with commas between them, perhaps one behind the last, and any blanks between the lexemes, are
read back from the text, all of them and in order. -/
theorem declarations_written {ds : List Declaration} (hds : ∀ d ∈ ds, d.Listable)
    (hnodup : (ds.map Declaration.name).Nodup) (trailing : Bool) {body : Text}
    (hbody : Spaced (listLexemes trailing (ds.map Declaration.parameter)) body) :
    declarations body = .ok ds := by
  refine declarations_listed ?_ hnodup hbody
  rw [List.forall₂_map_left_iff]
  exact List.forall₂_same.mpr fun d hd => declares_parameter (hds d hd)

/-- A parameter that admits null, a number with a blank behind its sign, and a text with a quote,
with and without blanks around the marks, and a comma at the end. -/
theorem declarations_written_of_four :
    declarations "?app.Item $item = null,int $n=- 5 ,$label=\"a\\\"b\",\n$rest,".toList
      = .ok [
        { name := "item".toList, required := false, type := some (.ofClass "app.Item".toList),
          default := some .null, nullable := true },
        { name := "n".toList, required := false, type := some (.primitive .int),
          default := some (.int (-5)) },
        { name := "label".toList, required := false, default := some (.string "a\"b".toList) },
        { name := "rest".toList }] := by
  refine declarations_written (by decide) (by decide) true ?_
  exact .next (.next (.blank (by decide) (.next (.blank (by decide) (.next (.blank (by decide)
    (.next (.next (.next (.blank (by decide) (.next (.next (.next (.blank (by decide) (.next
    (.blank (by decide) (.next (.next (.next (.next (.next (.blank (by decide) (.next (.next
    (.nil nofun)))))))))))))))))))))))))

end Signature

end ViewContract
