/-
ViewContract.Proofs.Docblock.Type — types of one member in a doc comment.

A doc comment scans a type for its end, cuts it at its bars, and reads each piece by the first
form that fits. A type of one member has no blank, bracket or bar in it (`IsTypeChar`), so it is
taken as a whole:

  §1 the end and the pieces of such a type.
  §2 names. A name that both notations share means the same type in both (`readMember_shared`).
-/
import ViewContract.Entry
import ViewContract.Proofs.Docblock.Nesting
import ViewContract.Proofs.Text.Blank
import ViewContract.Proofs.Text.ClassName
import ViewContract.Proofs.Text.Lowercase
import Mathlib.Data.List.Infix
import Mathlib.Tactic.ByContra

namespace ViewContract

open Text

namespace Docblock

/-! ## 1. The end of a type -/

/-- The characters of a type of one member. -/
def IsTypeChar (c : Char) : Prop :=
  isIdentifierPart c = true ∨ c = '\\' ∨ c = '.' ∨ c = '?'

/-- A character that is none of a type. -/
theorem IsTypeChar.ne {c d : Char} (hc : IsTypeChar c)
    (hd : isIdentifierPart d = false ∧ d ≠ '\\' ∧ d ≠ '.' ∧ d ≠ '?') : c ≠ d := by
  rintro rfl
  rcases hc with hc | rfl | rfl | rfl
  · rw [hd.1] at hc
    exact nomatch hc
  · exact hd.2.1 rfl
  · exact hd.2.2.1 rfl
  · exact hd.2.2.2 rfl

theorem IsTypeChar.not_blank {c : Char} (hc : IsTypeChar c) : isBlank c = false := by
  rcases hc with hc | rfl | rfl | rfl
  · exact not_blank_of_isIdentifierPart hc
  · decide
  · decide
  · decide

/-- No character of a type is a bracket. -/
theorem IsTypeChar.not_bracket {c : Char} (hc : IsTypeChar c) :
    closerOf? c = none ∧ isCloser c = false := by
  have hne : ∀ d, isIdentifierPart d = false ∧ d ≠ '\\' ∧ d ≠ '.' ∧ d ≠ '?' → c ≠ d :=
    fun d => hc.ne
  constructor
  · simp [closerOf?, hne '<' (by decide), hne '\x7b' (by decide), hne '(' (by decide),
      hne '[' (by decide)]
  · simp [isCloser, hne '>' (by decide), hne '\x7d' (by decide), hne ')' (by decide),
      hne ']' (by decide)]

/-- A type ends at a blank behind it, or at the end. -/
theorem scanType_written {t rest : Text} (line : Nat) (ht : ∀ c ∈ t, IsTypeChar c)
    (hrest : rest.head?.all isBlank = true) : scanType line (t ++ rest) = .ok (t, rest) := by
  rw [scanType_eq_ok_iff]
  refine ⟨rfl, nested_of_forall fun c hc => (ht c hc).not_bracket, ?_, hrest⟩
  rintro left c right rfl hblank
  have hc := ht c (List.mem_append_right left List.mem_cons_self)
  rw [hc.not_blank] at hblank
  cases hblank

theorem splitUnion_written {t : Text} (ht : ∀ c ∈ t, IsTypeChar c) : splitUnion t = [t] := by
  rw [splitUnion]
  induction t with
  | nil => rfl
  | cons c t ih =>
    have hc := ht c List.mem_cons_self
    have hbar : c ≠ '|' := hc.ne (by decide)
    have hdepth : depthStep c = 0 := by simp [depthStep, hc.not_bracket]
    have hlater := ih fun d hd => ht d (List.mem_cons_of_mem c hd)
    rw [splitUnionFrom]
    simp only [hdepth, Int.add_zero, hlater]
    simp [hbar]

/-! ## 2. Names -/

theorem eq_name_of_ofName? {t : Text} {kind : Kind} (h : Kind.ofName? t = some kind) :
    t = kind.name.toList := by
  have h := List.find?_some h
  exact (of_decide_eq_true h).symm

/-- The name of a kind is a class name, too. -/
theorem className_of_shared {t : Text} (h : Entry.SharedType t) : ClassName t := by
  rcases h with hkind | ⟨hname, _⟩
  · obtain ⟨kind, hkind⟩ := Option.isSome_iff_exists.mp hkind
    rw [eq_name_of_ofName? hkind]
    exact isClassName_iff.mp (by cases kind <;> decide)
  · exact isClassName_iff.mp hname

theorem isTypeChar_of_className {t : Text} (h : ClassName t) : ∀ c ∈ t, IsTypeChar c := by
  intro c hc
  rcases h.char c hc with hpart | hslash | hdot
  · exact .inl hpart
  · exact .inr (.inl hslash)
  · exact .inr (.inr (.inl hdot))

/-- The characters of a class name in lower case are such characters again. -/
theorem isTypeChar_of_mem_lower {t : Text} (h : ClassName t) : ∀ c ∈ lower t, IsTypeChar c := by
  have hascii : ∀ c ∈ t, c.toNat < 128 := by
    intro c hc
    rcases h.char c hc with hpart | rfl | rfl
    · have := isIdentifierPart_iff.mp hpart
      omega
    · decide
    · decide
  rw [lower_ascii hascii]
  intro c hc
  obtain ⟨d, hd, rfl⟩ := List.mem_map.mp hc
  rcases h.char d hd with hpart | rfl | rfl
  · exact .inl (isIdentifierPart_lowerChar hpart)
  · exact .inr (.inl (by decide))
  · exact .inr (.inr (.inl (by decide)))

theorem isTypeChar_of_isPrefixOf? {word t items : Text} (h : ∀ c ∈ t, IsTypeChar c)
    (hlead : word.isPrefixOf? t = some items) : ∀ c ∈ items, IsTypeChar c := by
  intro c hc
  rw [← List.append_eq_of_isPrefixOf?_eq_some hlead] at h
  exact h c (List.mem_append_right word hc)

theorem not_isEnclosed {t : Text} (h : ∀ c ∈ t, IsTypeChar c) {first last : Char}
    (hfirst : isIdentifierPart first = false ∧ first ≠ '\\' ∧ first ≠ '.' ∧ first ≠ '?') :
    isEnclosed first last t = false := by
  have hhead : t.head? ≠ some first := fun hhead =>
    (h first (List.mem_of_head? hhead)).ne hfirst rfl
  simp [isEnclosed, hhead]

/-- Without a bracket there are no item types. -/
theorem not_isGenericArray {name : Text} (h : ∀ c ∈ name, IsTypeChar c) :
    isGenericArray name = false := by
  have hbase : ∀ c ∈ ("non-empty-".toList.isPrefixOf? name).getD name, IsTypeChar c := by
    cases hlead : "non-empty-".toList.isPrefixOf? name with
    | none => exact h
    | some items => exact isTypeChar_of_isPrefixOf? h hlead
  refine List.any_eq_false.mpr fun word _ => ?_
  cases hlead : word.toList.isPrefixOf? (("non-empty-".toList.isPrefixOf? name).getD name) with
  | none => simp
  | some items =>
    have hitems := isTypeChar_of_isPrefixOf? hbase hlead
    have hangle : isEnclosed '<' '>' items = false := not_isEnclosed hitems (by decide)
    have hbrace : isEnclosed '\x7b' '\x7d' items = false := not_isEnclosed hitems (by decide)
    simp [hangle, hbrace]

/-- A type that is shared is read as a parameter list reads it. -/
theorem readMember_shared {t : Text} (h : Entry.SharedType t) :
    readMember t = .single (.type (TypeRef.ofName t)) := by
  have hname := className_of_shared h
  rcases h with hkind | ⟨hclass, hkind, hpseudo, hnull⟩
  · obtain ⟨kind, hkind⟩ := Option.isSome_iff_exists.mp hkind
    rw [eq_name_of_ofName? hkind]
    cases kind <;> decide
  · have hkind' : Kind.ofName? t = none := by
      by_contra hsome
      obtain ⟨kind, hsome⟩ := Option.ne_none_iff_exists'.mp hsome
      rw [eq_name_of_ofName? hsome] at hkind
      cases kind <;> exact absurd hkind (by decide)
    have hlist : "[]".toList.isSuffixOf t = false := by
      refine Bool.eq_false_iff.mpr fun hsuffix => ?_
      have hmem := (List.isSuffixOf_iff_suffix.mp hsuffix).mem (a := ']') (by decide)
      exact (isTypeChar_of_className hname ']' hmem).ne (by decide) rfl
    have hgroup : isEnclosed '(' ')' t = false :=
      not_isEnclosed (isTypeChar_of_className hname) (by decide)
    have hgeneric := not_isGenericArray (isTypeChar_of_mem_lower hname)
    simp only [readMember, if_neg hnull, hkind, hlist, hgeneric, hpseudo, hgroup, hclass,
      TypeRef.ofName, hkind', Bool.or_self, Bool.false_eq_true, if_false, if_true]

/-- The characters of a type with its question mark. -/
theorem isTypeChar_typeText {t : Text} (h : ClassName t) (nullable : Bool) :
    ∀ c ∈ (if nullable then ['?'] else []) ++ t, IsTypeChar c := by
  intro c hc
  rcases List.mem_append.mp hc with hc | hc
  · cases nullable with
    | false => exact absurd hc List.not_mem_nil
    | true => exact .inr (.inr (.inr (List.mem_singleton.mp hc)))
  · exact isTypeChar_of_className h c hc

/-- A type with its question mark, as one member of a union. -/
theorem members_written {t : Text} (h : Entry.SharedType t) (nullable : Bool) (line : Nat) :
    members line ((if nullable then ['?'] else []) ++ t)
      = .ok ((if nullable then [.null] else []) ++ [.type (TypeRef.ofName t)]) := by
  have hname := className_of_shared h
  have hchars := isTypeChar_typeText hname nullable
  have hread := readMember_shared h
  have htrim : trim ((if nullable then ['?'] else []) ++ t) =
      (if nullable then ['?'] else []) ++ t :=
    trim_eq_self_of_forall fun c hc => (hchars c hc).not_blank
  obtain ⟨c, rest, rfl, hc⟩ := hname.exists_head
  have hmark : c ≠ '?' := by
    rcases hc with rfl | hstart
    · decide
    · exact ne_of_isIdentifierPart (isIdentifierPart_of_start hstart) (by decide)
  rw [members, membersWithin, splitUnion_written hchars]
  simp only [readPieces, htrim]
  cases nullable with
  | false => simp [hmark, hread, bind, Except.bind, pure, Except.pure]
  | true => simp [hread, bind, Except.bind, pure, Except.pure]

end Docblock

end ViewContract
