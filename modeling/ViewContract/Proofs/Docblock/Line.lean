/-
ViewContract.Proofs.Docblock.Line — lines of a doc comment that declare a variable.

A line in the form `@param T $x` or `@param T $x (default: d)` is cut into its parts as they
were put together:

  §1 lines. They carry no decoration, and each opens a tag (`tags_plain`).
  §2 variables and default markers.
  §3 the declaration of such a tag. What is left to decide is the default
     (`declaration_written`).
-/
import ViewContract.Proofs.Docblock.Type
import ViewContract.Proofs.Text.Lines

namespace ViewContract

open Text

namespace Docblock

/-! ## 1. Lines -/

/-- What stands behind the name of the tag in a line without decoration: a blank first, no line
break, and no blank or slash at the end. -/
structure Plain (rest : Text) : Prop where
  head : ∃ t, rest = ' ' :: t
  oneLine : ∀ c ∈ rest, isLineBreak c = false
  last : ∃ c, rest.getLast? = some c ∧ isBlank c = false ∧ c ≠ '/'

theorem dropLead_of_ne {c d : Char} {lead t : Text} (h : c ≠ d) :
    dropLead (c :: lead) (d :: t) = d :: t := by
  simp [dropLead, List.isPrefixOf?, h]

theorem dropTail_of_ne {c d : Char} {tail t : Text} (ht : t.getLast? = some d) (h : c ≠ d) :
    dropTail (tail ++ [c]) t = t := by
  refine if_neg fun hsuffix => ?_
  obtain ⟨before, rfl⟩ := List.isSuffixOf_iff_suffix.mp hsuffix
  rw [← List.append_assoc, List.getLast?_append] at ht
  exact h (Option.some.inj ht)

/-- A line without decoration stays as it is. -/
theorem stripDecoration_plain {rest : Text} (h : Plain rest) :
    stripDecoration ("@param".toList ++ rest) = "@param".toList ++ rest := by
  obtain ⟨c, hlast, hblank, hslash⟩ := h.last
  have hend : ("@param".toList ++ rest).getLast? = some c := by
    rw [List.getLast?_append, hlast]
    rfl
  have htrim : trim ("@param".toList ++ rest) = "@param".toList ++ rest :=
    trim_eq_self rfl (by rw [hend]; simpa using hblank)
  have hopening : dropLead "/**".toList ("@param".toList ++ rest) = "@param".toList ++ rest :=
    dropLead_of_ne (by decide)
  have hclosing : dropTail "*/".toList ("@param".toList ++ rest) = "@param".toList ++ rest :=
    @dropTail_of_ne '/' c ['*'] _ hend hslash.symm
  have hstar : dropLead "*".toList ("@param".toList ++ rest) = "@param".toList ++ rest :=
    dropLead_of_ne (by decide)
  simp only [stripDecoration, htrim, hopening, hclosing, hstar]

theorem openTag?_plain {rest : Text} (h : Plain rest) :
    openTag? ("@param".toList ++ rest) = some ("param".toList, rest) := by
  obtain ⟨t, rfl⟩ := h.head
  have hname : ∀ c ∈ "aram".toList, (isWord c || decide (c = '-')) = true :=
    forall_mem_of_all (by decide)
  have hblank : (isWord ' ' || decide (' ' = '-')) = false := by decide
  have htake : ("aram".toList ++ ' ' :: t).takeWhile (fun d => isWord d || decide (d = '-'))
      = "aram".toList := takeWhile_append_of_head hname hblank
  have hdrop : ("aram".toList ++ ' ' :: t).dropWhile (fun d => isWord d || decide (d = '-'))
      = ' ' :: t := by
    rw [List.dropWhile_append_of_pos hname, List.dropWhile_cons,
      if_neg (by rw [hblank]; exact Bool.false_ne_true)]
  change openTag? ('@' :: 'p' :: ("aram".toList ++ ' ' :: t)) = _
  rw [openTag?, if_pos (by decide)]
  simp only [htake, hdrop]
  rfl

/-- The tags of lines from a number on, by what stands behind the name of each. -/
def paramTags (number : Nat) : List Text → List Tag
  | [] => []
  | rest :: rests =>
    { name := "param".toList, rest, line := number } :: paramTags (number + 1) rests

/-- Every line opens a tag of its own. -/
theorem tagsFrom_plain {rests : List Text} (h : ∀ rest ∈ rests, Plain rest) (number : Nat) :
    tagsFrom number (rests.map ("@param".toList ++ ·)) = ([], paramTags number rests) := by
  induction rests generalizing number with
  | nil => rfl
  | cons rest rests ih =>
    have hrest := h rest List.mem_cons_self
    have hlater := ih (fun r hr => h r (List.mem_cons_of_mem rest hr)) (number + 1)
    have hname : lower "param".toList = "param".toList := by decide
    rw [List.map_cons, tagsFrom]
    simp only [stripDecoration_plain hrest, hlater, openTag?_plain hrest, hname, List.append_nil]
    rfl

/-- The tags of plain lines. -/
theorem tags_plain {rests : List Text} (h : ∀ rest ∈ rests, Plain rest) :
    tags (['\n'].intercalate (rests.map ("@param".toList ++ ·))) = paramTags 1 rests := by
  have hlines : lines (['\n'].intercalate (rests.map ("@param".toList ++ ·)))
      = rests.map ("@param".toList ++ ·) := by
    refine lines_intercalate fun l hl => ?_
    obtain ⟨rest, hrest, rfl⟩ := List.mem_map.mp hl
    refine ⟨by simp, fun c hc => ?_⟩
    rcases List.mem_append.mp hc with hc | hc
    · have hlead : ∀ c ∈ "@param".toList, isLineBreak c = false := forall_mem_of_all (by decide)
      exact hlead c hc
    · exact (h rest hrest).oneLine c hc
  rw [tags, hlines, tagsFrom_plain h]

/-! ## 2. Markers -/

/-- What stands behind the variable: nothing, or a default marker. -/
def markerText (default : Option Text) : Text :=
  default.elim [] (fun value => " (default: ".toList ++ value ++ [')'])

/-- A marker gives what stands before its closing parenthesis, with the blank in front. -/
theorem markerHere?_marker {value : Text} (h : ')' ∉ value) :
    markerHere? ("(default:".toList ++ ' ' :: value ++ [')']) = some (' ' :: value) := by
  have htake : ("(default:".toList ++ ' ' :: value ++ [')']).take "(default:".toList.length
      = "(default:".toList := by
    rw [List.append_assoc, List.take_left]
  have hdrop : ("(default:".toList ++ ' ' :: value ++ [')']).drop "(default:".toList.length
      = ' ' :: value ++ [')'] := by
    rw [List.append_assoc, List.drop_left]
  have hvalue : (' ' :: value ++ [')']).takeWhile (· ≠ ')') = ' ' :: value := by
    refine takeWhile_append_of_head (fun c hc => ?_) rfl
    have hne : c ≠ ')' := by
      rintro rfl
      rcases List.mem_cons.mp hc with hc | hc
      · exact absurd hc (by decide)
      · exact h hc
    simpa using hne
  have hlower : "(default:".toList.map Char.toLower = "(default:".toList := by decide
  simp only [markerHere?, htake, hlower, hdrop, hvalue, if_true]
  simp

/-- The marker is the first in its description. -/
theorem marker?_markerText {default : Option Text}
    (h : ∀ value, default = some value → ')' ∉ value) :
    marker? (markerText default) = default.map (' ' :: ·) := by
  cases default with
  | none => rfl
  | some value =>
    have hmarker := markerHere?_marker (h value rfl)
    have hcut : markerText (some value) = ' ' :: ("(default:".toList ++ ' ' :: value ++ [')']) := by
      simp [markerText]
    have hblank : markerHere? (' ' :: ("(default:".toList ++ ' ' :: value ++ [')'])) = none := by
      simp [markerHere?]
    rw [hcut, marker?, hblank]
    change marker? ('(' :: ("default:".toList ++ ' ' :: value ++ [')'])) = _
    rw [marker?]
    change (markerHere? ("(default:".toList ++ ' ' :: value ++ [')']) <|> _) = _
    rw [hmarker]
    rfl

theorem head?_markerText (default : Option Text) :
    (markerText default).head?.all isBlank = true := by
  cases default with
  | none => rfl
  | some value => simp [markerText, show isBlank ' ' = true by decide]

theorem leadingVariable?_written {name : Text} (hname : isIdentifier name = true)
    (default : Option Text) :
    leadingVariable? ('$' :: (name ++ markerText default)) = some (name, markerText default) := by
  have hread : leadingIdentifier? (name ++ markerText default) = some name :=
    leadingIdentifier?_append hname (by
      cases default with
      | none => rfl
      | some value => simp [markerText, show isIdentifierPart ' ' = false by decide])
  simp [leadingVariable?, hread, head?_markerText]

/-! ## 3. Declarations -/

/-- What stands behind the name of the tag in a declaring line. -/
def paramText (type name : Text) (default : Option Text) : Text :=
  ' ' :: (type ++ ' ' :: '$' :: (name ++ markerText default))

theorem lineText_eq (type name : Text) (default : Option Text) :
    lineText type name default = "@param".toList ++ paramText type name default := by
  have hparam : "@param ".toList = "@param".toList ++ [' '] := by simp
  have hdollar : " $".toList = [' ', '$'] := by simp
  calc lineText type name default
      = "@param ".toList ++ type ++ " $".toList ++ name ++ markerText default := rfl
    _ = ("@param".toList ++ [' ']) ++ type ++ [' ', '$'] ++ name ++ markerText default := by
        rw [← hparam, ← hdollar]
    _ = "@param".toList ++ paramText type name default := by
        simp only [paramText, List.append_assoc, List.cons_append, List.nil_append]

/-- A declaring line ends with its name or the parenthesis of its marker. -/
theorem getLast?_variable {name : Text} (hname : isIdentifier name = true) (default : Option Text) :
    ∃ c, (name ++ markerText default).getLast? = some c ∧ isBlank c = false ∧ c ≠ '/' := by
  cases default with
  | some value =>
    refine ⟨')', ?_, by decide, by decide⟩
    rw [markerText, Option.elim_some, ← List.append_assoc, List.getLast?_concat]
  | none =>
    obtain ⟨c, rest, rfl, _, hparts⟩ := exists_of_isIdentifier hname
    have hlast := List.getLast?_eq_some_getLast (List.cons_ne_nil c rest)
    have hpart := hparts _ (List.mem_of_getLast? hlast)
    refine ⟨_, by rw [markerText, Option.elim_none, List.append_nil, hlast],
      not_blank_of_isIdentifierPart hpart, ne_of_isIdentifierPart hpart (by decide)⟩

theorem plain_paramText {type name : Text} (htype : ∀ c ∈ type, IsTypeChar c)
    (hname : isIdentifier name = true) {default : Option Text}
    (hdefault : ∀ value, default = some value → ∀ c ∈ value, isLineBreak c = false) :
    Plain (paramText type name default) := by
  obtain ⟨_, _, _, _, hparts⟩ := exists_of_isIdentifier hname
  obtain ⟨last, hlast⟩ := getLast?_variable hname default
  have hmarker : ∀ c ∈ markerText default, isLineBreak c = false := by
    cases default with
    | none => exact fun c hc => absurd hc List.not_mem_nil
    | some value =>
      have hlead : ∀ c ∈ " (default: ".toList, isLineBreak c = false :=
        forall_mem_of_all (by decide)
      intro c hc
      rcases List.mem_append.mp hc with hc | hc
      · exact (List.mem_append.mp hc).elim (hlead c) (hdefault value rfl c)
      · rw [List.mem_singleton.mp hc]
        decide
  refine ⟨⟨_, rfl⟩, fun c hc => ?_, last, ?_, hlast.2⟩
  · simp only [paramText, List.mem_cons, List.mem_append] at hc
    rcases hc with rfl | hc | rfl | rfl | hc | hc
    · decide
    · exact not_isLineBreak_of_not_blank (htype c hc).not_blank
    · decide
    · decide
    · exact not_isLineBreak_of_not_blank (not_blank_of_isIdentifierPart (hparts c hc))
    · exact hmarker c hc
  · have hne : name ++ markerText default ≠ [] := fun h => by rw [h] at hlast; exact nomatch hlast.1
    rw [paramText, List.getLast?_cons_of_ne_nil (by simp),
      List.getLast?_append_of_ne_nil _ (by simp), List.getLast?_cons_of_ne_nil (by simp),
      List.getLast?_cons_of_ne_nil hne, hlast.1]

/-- A declaring line is one tag. -/
theorem tags_lineText {type name : Text} (htype : ∀ c ∈ type, IsTypeChar c)
    (hname : isIdentifier name = true) {default : Option Text}
    (hdefault : ∀ value, default = some value → ∀ c ∈ value, isLineBreak c = false) :
    tags (lineText type name default) = paramTags 1 [paramText type name default] := by
  have htags := tags_plain (List.forall_mem_singleton.mpr (plain_paramText htype hname hdefault))
  rwa [List.map_singleton, List.intercalate_singleton, ← lineText_eq] at htags

/-- Behind the type a line ends with its name or the parenthesis, so nothing is trimmed there. -/
theorem getLast?_description {name : Text} (hname : isIdentifier name = true)
    (default : Option Text) :
    ('$' :: (name ++ markerText default)).getLast?.all (!isBlank ·) = true := by
  obtain ⟨c, hlast, hblank, _⟩ := getLast?_variable hname default
  have hne : name ++ markerText default ≠ [] := fun h => by rw [h] at hlast; exact nomatch hlast
  rw [List.getLast?_cons_of_ne_nil hne, hlast]
  simpa using hblank

theorem trim_description {name : Text} (hname : isIdentifier name = true) (default : Option Text) :
    trim (' ' :: '$' :: (name ++ markerText default)) = '$' :: (name ++ markerText default) :=
  trim_cons_blank (by decide) (by simp [show isBlank '$' = false by decide])
    (getLast?_description hname default)

/-- Only the blank in front of the type is trimmed. -/
theorem trim_paramText {c : Char} {type name : Text} (hc : IsTypeChar c)
    (hname : isIdentifier name = true) (default : Option Text) :
    trim (paramText (c :: type) name default)
      = c :: (type ++ ' ' :: '$' :: (name ++ markerText default)) := by
  refine trim_cons_blank (by decide) (by simp [hc.not_blank]) ?_
  have hlast := getLast?_description hname default
  rwa [← List.cons_append, List.getLast?_append_of_ne_nil _ (by simp),
    List.getLast?_cons_of_ne_nil (by simp)]

/-- **What a declaring line comes to**: the default as the type asks, and the declaration with
it. -/
theorem declaration_written {type name : Text} (htype : Entry.SharedType type) (nullable : Bool)
    (hname : isIdentifier name = true) {default : Option Text}
    (hdefault : ∀ value, default = some value → ')' ∉ value) (number : Nat) :
    Tag.declaration ⟨"param".toList,
        paramText ((if nullable then ['?'] else []) ++ type) name default, number⟩ = (do
      let l ← defaultOfMarker (default.map (' ' :: ·)) (some (TypeRef.ofName type))
      Declaration.inBody
        { name := name, required := default.isNone && !nullable,
          type := some (TypeRef.ofName type), default := l, nullable := nullable }) := by
  have hchars := isTypeChar_typeText (className_of_shared htype) nullable
  have hmembers := members_written htype nullable number
  have htyping :
      Typing.ofMembers ((if nullable then [.null] else []) ++ [.type (TypeRef.ofName type)])
      = { type := some (TypeRef.ofName type), nullable := nullable } := by
    cases nullable <;> rfl
  obtain ⟨c, rest, hcut⟩ : ∃ c rest, (if nullable then ['?'] else []) ++ type = c :: rest := by
    obtain ⟨c, rest, rfl, _⟩ := (className_of_shared htype).exists_head
    cases nullable <;> simp
  rw [hcut] at hchars hmembers ⊢
  have hc : IsTypeChar c := hchars c List.mem_cons_self
  have hscan : scanType number (c :: (rest ++ ' ' :: '$' :: (name ++ markerText default)))
      = .ok (c :: rest, ' ' :: '$' :: (name ++ markerText default)) :=
    scanType_written number hchars (by simp [show isBlank ' ' = true by decide])
  have htypes : Tag.typeMembers ⟨"param".toList, paramText (c :: rest) name default, number⟩
      (c :: (rest ++ ' ' :: '$' :: (name ++ markerText default)))
        = .ok ((if nullable then [.null] else []) ++ [.type (TypeRef.ofName type)],
            '$' :: (name ++ markerText default)) := by
    have hdollar : c ≠ '$' := hc.ne (by decide)
    simp [Tag.typeMembers, hdollar, hscan, hmembers, trim_description hname, bind, Except.bind,
      pure, Except.pure]
  simp only [Tag.declaration, trim_paramText hc hname, List.isEmpty_cons, htypes, Except.mapError,
    bind, Except.bind, leadingVariable?_written hname, htyping, marker?_markerText hdefault,
    Option.isNone_map]
  rfl

theorem declares_param (rest : Text) (number : Nat) :
    Tag.declares ⟨"param".toList, rest, number⟩ = true := by
  simp [Tag.declares]

end Docblock

end ViewContract
