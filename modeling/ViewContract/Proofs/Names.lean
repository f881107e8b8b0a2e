/-
ViewContract.Proofs.Names — the names and class paths that are accepted.

A name is declared by an identifier and a class by identifiers with dots between them, both of
ASCII characters only. The checks read a text up to the end of a line, so they let one line feed
through behind it:

  §1 the shapes, said without the checks (`Identifier`, `DottedName`).
  §2 the checks. Each accepts its shape, with a line feed behind it or without one
     (`uptoLineFeed_iff`).
  §3 what is accepted from outside (`names_accepted_iff`). A reserved word is refused, but with a
     line feed behind it, it is not recognised.
-/
import ViewContract.Proofs.Text.ClassName
import ViewContract.Record

namespace ViewContract

open Text

/-! ## 1. Shapes -/

/-- A character that a name can begin with. -/
def IsLetter (c : Char) : Prop :=
  'A' ≤ c ∧ c ≤ 'Z' ∨ 'a' ≤ c ∧ c ≤ 'z' ∨ c = '_'

/-- A character that a name can go on with. -/
def IsLetterOrDigit (c : Char) : Prop :=
  IsLetter c ∨ '0' ≤ c ∧ c ≤ '9'

/-- A letter or underscore, and letters, digits and underscores behind it. -/
inductive Identifier : Text → Prop where
  | mk {c : Char} {rest : Text} (hc : IsLetter c) (hrest : ∀ d ∈ rest, IsLetterOrDigit d) :
      Identifier (c :: rest)

/-- Identifiers with dots between them. -/
inductive DottedName : Text → Prop where
  | single {name : Text} (hname : Identifier name) : DottedName name
  | dot {name rest : Text} (hname : Identifier name) (hrest : DottedName rest) :
      DottedName (name ++ '.' :: rest)

/-! ## 2. Checks -/

theorem isIdentifierStart_iff_isLetter {c : Char} : isIdentifierStart c = true ↔ IsLetter c := by
  rw [isIdentifierStart_iff, or_assoc, ← eq_underscore_iff]
  exact Iff.rfl

theorem isIdentifierPart_iff_isLetterOrDigit {c : Char} :
    isIdentifierPart c = true ↔ IsLetterOrDigit c := by
  rw [isIdentifierPart_iff, or_right_comm, ← isIdentifierStart_iff, isIdentifierStart_iff_isLetter]
  exact Iff.rfl

theorem isIdentifier_iff {t : Text} : isIdentifier t = true ↔ Identifier t := by
  constructor
  · intro h
    cases t with
    | nil => cases h
    | cons c rest =>
      rw [isIdentifier, Bool.and_eq_true, List.all_eq_true] at h
      exact .mk (isIdentifierStart_iff_isLetter.mp h.1)
        fun d hd => isIdentifierPart_iff_isLetterOrDigit.mp (h.2 d hd)
  · rintro ⟨hc, hrest⟩
    rw [isIdentifier, Bool.and_eq_true, List.all_eq_true]
    exact ⟨isIdentifierStart_iff_isLetter.mpr hc,
      fun d hd => isIdentifierPart_iff_isLetterOrDigit.mpr (hrest d hd)⟩

theorem isDottedPath_of_isIdentifier {t : Text} (h : isIdentifier t = true) :
    isDottedPath t = true := by
  rw [isDottedPath_of_not_mem (not_mem_of_isIdentifier h (by decide)), h]

/-- Cutting at the dots finds identifiers only in a dotted name. -/
theorem isDottedPath_iff {t : Text} : isDottedPath t = true ↔ DottedName t := by
  constructor
  · intro h
    induction hn : t.length using Nat.strongRecOn generalizing t with
    | ind n ih =>
      by_cases hdot : '.' ∈ t
      · obtain ⟨name, rest, rfl, hname⟩ := List.eq_append_cons_of_mem hdot
        rw [isDottedPath_append, Bool.and_eq_true, isDottedPath_of_not_mem hname] at h
        have hlt : rest.length < n := by
          rw [← hn, List.length_append, List.length_cons]
          omega
        exact .dot (isIdentifier_iff.mp h.1) (ih _ hlt h.2 rfl)
      · rw [isDottedPath_of_not_mem hdot] at h
        exact .single (isIdentifier_iff.mp h)
  · intro h
    induction h with
    | single hname => exact isDottedPath_of_isIdentifier (isIdentifier_iff.mpr hname)
    | dot hname _ ih =>
      rw [isDottedPath_append, isDottedPath_of_isIdentifier (isIdentifier_iff.mpr hname), ih]
      rfl

/-- What is accepted up to the end of a line. -/
theorem uptoLineFeed_iff {accepts : Text → Bool} {t : Text} :
    uptoLineFeed accepts t = true ↔
      accepts t = true ∨ ∃ u, accepts u = true ∧ t = u ++ ['\n'] := by
  rw [uptoLineFeed, Bool.or_eq_true, Bool.and_eq_true, beq_iff_eq]
  refine or_congr_right ⟨?_, ?_⟩
  · rintro ⟨hlast, hu⟩
    obtain ⟨u, rfl⟩ := List.getLast?_eq_some_iff.mp hlast
    rw [List.dropLast_concat] at hu
    exact ⟨u, hu, rfl⟩
  · rintro ⟨u, hu, rfl⟩
    exact ⟨List.getLast?_concat, by rwa [List.dropLast_concat]⟩

/-- A name as it is accepted. -/
def AcceptedName (s : Text) : Prop :=
  Identifier s ∧ isReserved s = false ∨ ∃ t, Identifier t ∧ s = t ++ ['\n']

/-- A class path as it is accepted. -/
def AcceptedPath (s : Text) : Prop :=
  DottedName s ∨ ∃ t, DottedName t ∧ s = t ++ ['\n']

/-- No reserved word ends with a line feed. -/
theorem isReserved_feed (t : Text) : isReserved (t ++ ['\n']) = false := by
  refine Bool.eq_false_iff.mpr fun hreserved => ?_
  obtain ⟨word, hmem, hword⟩ := List.any_eq_true.mp hreserved
  have hfeeds : reservedWords.all (fun word => !word.toList.contains '\n') = true := by decide
  have hnone := List.all_eq_true.mp hfeeds word hmem
  rw [of_decide_eq_true hword] at hnone
  simp at hnone

theorem checkName_eq_ok_iff {s : Text} : checkName s = .ok () ↔ AcceptedName s := by
  have hshape : uptoLineFeed isIdentifier s = true ↔
      Identifier s ∨ ∃ t, Identifier t ∧ s = t ++ ['\n'] := by
    simp only [uptoLineFeed_iff, isIdentifier_iff]
  rw [checkName]
  cases hname : uptoLineFeed isIdentifier s with
  | false =>
    have hnone : ¬ AcceptedName s := fun h => by
      rw [hshape.mpr (h.imp_left And.left)] at hname
      cases hname
    simp [hnone]
  | true =>
    cases hreserved : isReserved s with
    | false =>
      have haccepted : AcceptedName s := (hshape.mp hname).imp_left fun h => ⟨h, hreserved⟩
      simp [haccepted]
    | true =>
      have hnone : ¬ AcceptedName s := by
        rintro (⟨_, hnot⟩ | ⟨t, _, rfl⟩)
        · rw [hnot] at hreserved
          cases hreserved
        · rw [isReserved_feed] at hreserved
          cases hreserved
      simp [hnone]

theorem ofPath_eq_ok_iff {s : Text} : (∃ type, TypeRef.ofPath s = .ok type) ↔ AcceptedPath s := by
  have hshape : isClassPath s = true ↔ AcceptedPath s := by
    simp only [isClassPath, uptoLineFeed_iff, isDottedPath_iff, AcceptedPath]
  rw [← hshape, TypeRef.ofPath]
  split
  · rename_i hpath
    simp [hpath]
  · rename_i hpath
    simp [hpath]

/-! ## 3. What is accepted from outside -/

theorem Declaration.validate_eq_ok_iff {d : Declaration} : d.validate = .ok d ↔
    AcceptedName d.name ∧ (d.required = true → d.default = none) := by
  rw [← checkName_eq_ok_iff, validate]
  cases checkName d.name with
  | error fault => exact iff_of_false nofun nofun
  | ok =>
    refine Iff.trans ?_ (and_iff_right rfl).symm
    show (if d.default.isSome && d.required then _ else _) = _ ↔ _
    split
    · rename_i hboth
      have hfails : ¬ (d.required = true → d.default = none) := by
        rw [Bool.and_eq_true, Option.isSome_iff_ne_none] at hboth
        exact fun h => hboth.1 (h hboth.2)
      exact iff_of_false nofun hfails
    · rename_i hnot
      refine iff_of_true rfl fun hrequired => ?_
      rw [hrequired, Bool.and_true, Option.not_isSome_iff_eq_none] at hnot
      exact hnot

/-- A declaration of nothing but a name. -/
def namedRecord (s : Text) : Record.DeclarationRecord :=
  { name := some s }

/-- A class reference by its path. -/
def classRecord (s : Text) : Record.TypeRecord :=
  { tag := some "class".toList, name := some s }

theorem toDeclaration_namedRecord (s : Text) :
    (∃ d, (namedRecord s).toDeclaration = .ok d) ↔ AcceptedName s := by
  rw [← checkName_eq_ok_iff]
  have hread : (namedRecord s).toDeclaration
      = checkName s >>= fun _ => Declaration.validate { name := s } := rfl
  rw [hread, Declaration.validate]
  cases checkName s with
  | error fault => exact iff_of_false (fun ⟨_, h⟩ => nomatch h) nofun
  | ok => exact iff_of_true ⟨_, rfl⟩ rfl

theorem toTypeRef_classRecord (s : Text) :
    (∃ type, (classRecord s).toTypeRef = .ok type) ↔ AcceptedPath s :=
  ofPath_eq_ok_iff

theorem Identifier.not_feed_mem {t : Text} (h : Identifier t) : '\n' ∉ t :=
  not_mem_of_isIdentifier (isIdentifier_iff.mpr h) (by decide)

theorem DottedName.not_feed_mem {t : Text} (h : DottedName t) : '\n' ∉ t := by
  induction h with
  | single hname => exact hname.not_feed_mem
  | dot hname _ ih => simp [hname.not_feed_mem, ih]

/-- A check that lets something else through decides a shape except on what it lets through. -/
theorem decides_iff {accepted shape extra : Prop} (h : accepted ↔ shape ∨ extra)
    (hapart : extra → ¬ shape) : (accepted ↔ shape) ↔ ¬ extra := by
  constructor
  · exact fun hdecides hextra => hapart hextra (hdecides.mp (h.mpr (.inr hextra)))
  · exact fun hnone => h.trans (or_iff_left hnone)

/-- **The names and class paths that are accepted**: identifiers that are not reserved, and
identifiers with dots between them, and besides each such shape with one line feed behind it, then
also for a reserved word. So the checks are as documented exactly on all other texts. A declaration
with other fields is accepted by its name, too, if it is not required in spite of a default. -/
theorem names_accepted_iff (s : Text) :
    ((∃ d, (namedRecord s).toDeclaration = .ok d) ↔
      Identifier s ∧ isReserved s = false ∨ ∃ t, Identifier t ∧ s = t ++ ['\n']) ∧
    ((∃ type, (classRecord s).toTypeRef = .ok type) ↔
      DottedName s ∨ ∃ t, DottedName t ∧ s = t ++ ['\n']) ∧
    (((∃ d, (namedRecord s).toDeclaration = .ok d) ↔ Identifier s ∧ isReserved s = false) ↔
      ¬ ∃ t, Identifier t ∧ s = t ++ ['\n']) ∧
    (((∃ type, (classRecord s).toTypeRef = .ok type) ↔ DottedName s) ↔
      ¬ ∃ t, DottedName t ∧ s = t ++ ['\n']) ∧
    ∀ d : Declaration, { d with name := s }.validate = .ok { d with name := s } ↔
      AcceptedName s ∧ (d.required = true → d.default = none) := by
  have hfeed : ∀ t : Text, '\n' ∈ t ++ ['\n'] := fun t =>
    List.mem_append_right t List.mem_cons_self
  refine ⟨toDeclaration_namedRecord s, toTypeRef_classRecord s,
    decides_iff (toDeclaration_namedRecord s) ?_, decides_iff (toTypeRef_classRecord s) ?_,
    fun d => Declaration.validate_eq_ok_iff⟩
  · rintro ⟨t, _, rfl⟩ ⟨hname, _⟩
    exact hname.not_feed_mem (hfeed t)
  · rintro ⟨t, _, rfl⟩ hpath
    exact hpath.not_feed_mem (hfeed t)

/-- An identifier and a reserved word, both with a line feed behind them, are accepted as names,
and a dotted name with one as a class path. -/
theorem names_accepted_of_feed :
    (∃ d, (namedRecord "x\n".toList).toDeclaration = .ok d) ∧
      (∃ d, (namedRecord "if\n".toList).toDeclaration = .ok d) ∧
      ∃ type, (classRecord "a.b\n".toList).toTypeRef = .ok type := by
  have hidentifier : ∀ {t : Text}, isIdentifier t = true → Identifier t := isIdentifier_iff.mp
  refine ⟨(names_accepted_iff _).1.mpr (.inr ⟨"x".toList, hidentifier (by decide), rfl⟩),
    (names_accepted_iff _).1.mpr (.inr ⟨"if".toList, hidentifier (by decide), rfl⟩),
    (names_accepted_iff _).2.1.mpr (.inr ⟨"a.b".toList, isDottedPath_iff.mp (by decide), rfl⟩)⟩

/-- More is accepted than the documented shapes, for names and for class paths. -/
theorem not_forall_names_accepted :
    (¬ ∀ s, (∃ d, (namedRecord s).toDeclaration = .ok d) ↔
      Identifier s ∧ isReserved s = false) ∧
    ¬ ∀ s, (∃ type, (classRecord s).toTypeRef = .ok type) ↔ DottedName s := by
  constructor
  · intro h
    have hname := ((h "x\n".toList).mp ⟨{ name := "x\n".toList }, rfl⟩).1
    exact absurd (isIdentifier_iff.mpr hname) (by decide)
  · intro h
    have hpath := (h "a.b\n".toList).mp ⟨.ofClass "a.b\n".toList, rfl⟩
    exact absurd (isDottedPath_iff.mpr hpath) (by decide)

end ViewContract
