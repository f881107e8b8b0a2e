/-
ViewContract.Proofs.Annotation.Declared — what an annotation declares.

Both notations end in the same checks, but these let more through than the notations yield: a
name is checked up to the end of a line only. That a declared name is an identifier without
further characters comes from the places where names are read, which are far apart:

  §1 numbers. Every double that is read is in normal form.
  §2 defaults of either notation.
  §3 the checks that follow the reading of a declaration and of a list of them.
  §4 parameter lists. A name is a token, so the tokens that the readers leave are followed.
  §5 doc comments, and annotations of either form (`sound_of_read`).
-/
import ViewContract.Compile
import ViewContract.Proofs.Number.Rounding
import ViewContract.Proofs.Signature.Token
import ViewContract.Proofs.TextDefault
import Mathlib.Data.List.Nodup

namespace ViewContract

open Text

/-! ## 1. Numbers -/

theorem isNormal_of_readDecimal? {negative : Bool} {t : Text} {x : Number.Binary64}
    (h : Number.readDecimal? negative t = some x) : x.IsNormal := by
  rw [Number.readDecimal?] at h
  dsimp only at h
  -- with a fraction or without one
  split at h
  all_goals
    split at h
    · exact nomatch h
    · obtain ⟨power, _, h⟩ := Option.bind_eq_some_iff.mp h
      obtain rfl := Option.some.inj h
      exact Number.isNormal_ofDecimal _ _ _

theorem isNormal_of_readDouble? {t : Text} {x : Number.Binary64}
    (h : Number.readDouble? t = some x) : x.IsNormal := by
  rw [Number.readDouble?] at h
  obtain ⟨plain, _, h⟩ := Option.bind_eq_some_iff.mp h
  dsimp only at h
  split at h
  · obtain rfl := Option.some.inj h
    exact trivial
  · split at h
    · obtain rfl := Option.some.inj h
      exact trivial
    · exact isNormal_of_readDecimal? h

/-- A number that is read is an integer or a double in normal form. -/
def Number.Literal.IsNormal : Number.Literal → Prop
  | .int _ => True
  | .float x => x.IsNormal

theorem isNormal_of_read {t : Text} {l : Number.Literal} (h : Number.Literal.read t = .ok l) :
    l.IsNormal := by
  rw [Number.Literal.read] at h
  split at h
  · obtain rfl := Except.ok.inj h
    exact trivial
  · split at h
    · obtain rfl := Except.ok.inj h
      exact trivial
    · split at h
      · exact nomatch h
      · split at h
        · rename_i x hx
          obtain rfl := Except.ok.inj h
          exact isNormal_of_readDouble? hx
        · exact nomatch h

/-! ## 2. Defaults -/

/-- A literal that is a default: a double in it is finite and in normal form. -/
def Literal.Sound : Literal → Prop
  | .float (.finite _ m e) => Number.Normal m e
  | .float _ => False
  | _ => True

theorem Literal.sound_float {x : Number.Binary64} (hx : x.IsNormal) (hfinite : x.isFinite = true) :
    (Literal.float x).Sound := by
  cases x with
  | finite negative m e => exact hx
  | infinite negative => exact absurd hfinite Bool.false_ne_true
  | nan => exact absurd hfinite Bool.false_ne_true

theorem Literal.sound_of_ofFiniteDouble {x : Number.Binary64} (hx : x.IsNormal) {l : Literal}
    (h : Literal.ofFiniteDouble x = .ok l) : l.Sound := by
  rw [ofFiniteDouble] at h
  split at h
  · obtain rfl := Except.ok.inj h
    exact sound_float hx ‹_›
  · cases h

/-- A value is in normal form if it is no double or one in normal form. -/
def Value.IsNormal (v : Value) : Prop :=
  ∀ x, v = .float x → x.IsNormal

theorem Literal.sound_of_ofValue {v : Value} (hv : v.IsNormal) {l : Literal}
    (h : Literal.ofValue v = .ok l) : l.Sound := by
  rw [ofValue.eq_def] at h
  split at h
  · obtain rfl := Except.ok.inj h
    exact trivial
  · cases h
  · obtain rfl := Except.ok.inj h
    exact trivial
  · exact sound_of_ofFiniteDouble (hv _ rfl) h
  · obtain rfl := Except.ok.inj h
    exact trivial
  · cases h
  · cases h
  · cases h
  · split at h <;> cases h

theorem Literal.sound_of_ofText {t : Text} {type : Option TypeRef} {l : Literal}
    (h : Literal.ofText t type = .ok (some l)) : l.Sound := by
  rcases exists_stands_of_ofText h with rfl | ⟨kind, rfl, hl⟩
  · exact trivial
  · cases hl with
    | null _ => exact trivial
    | text _ _ => exact trivial
    | number _ hread htakes =>
      cases htakes with
      | int n => exact trivial
      | float hx => exact sound_float (isNormal_of_read hread) hx
      | nearest hx =>
        rw [Number.Binary64.ofInt?] at hx
        split at hx
        · obtain rfl := Option.some.inj hx
          exact sound_float (Number.isNormal_ofRatio _ _ Nat.one_pos) ‹_›
        · exact nomatch hx

/-! ## 3. Checks -/

/-- A declaration as an annotation gives it: its name is an identifier that is no word of the
template language, and its default is sound. -/
structure Declaration.Sound (d : Declaration) : Prop where
  name : isIdentifier d.name = true
  notReserved : isReserved d.name = false
  default : ∀ l, d.default = some l → l.Sound

/-- The checks leave a declaration as it is. -/
theorem eq_of_inBody {d d' : Declaration} (h : d.inBody = .ok d') : d' = d := by
  obtain ⟨_, _, h⟩ := exists_of_bind_eq_ok (eq_ok_of_mapError h)
  split at h
  · exact nomatch h
  · exact (Except.ok.inj h).symm

theorem notReserved_of_inBody {d d' : Declaration} (h : d.inBody = .ok d') :
    isReserved d.name = false := by
  obtain ⟨_, hcheck, _⟩ := exists_of_bind_eq_ok (eq_ok_of_mapError h)
  rw [checkName] at hcheck
  split at hcheck
  · exact nomatch hcheck
  · split at hcheck
    · exact nomatch hcheck
    · simpa using ‹¬ isReserved d.name = true›

theorem sound_of_inBody {d d' : Declaration} (hname : isIdentifier d.name = true)
    (hdefault : ∀ l, d.default = some l → l.Sound) (h : d.inBody = .ok d') : d'.Sound := by
  obtain rfl := eq_of_inBody h
  exact ⟨hname, notReserved_of_inBody h, hdefault⟩

theorem nodup_of_firstDuplicate? {seen : List Text} {ds : List Declaration}
    (h : firstDuplicate? seen ds = none) :
    (ds.map Declaration.name).Nodup ∧ ∀ d ∈ ds, d.name ∉ seen := by
  induction ds generalizing seen with
  | nil => exact ⟨List.nodup_nil, fun d hd => absurd hd List.not_mem_nil⟩
  | cons d ds ih =>
    rw [firstDuplicate?] at h
    split at h
    · exact nomatch h
    · rename_i hseen
      obtain ⟨hnodup, hfresh⟩ := ih h
      constructor
      · rw [List.map_cons, List.nodup_cons]
        refine ⟨fun hmem => ?_, hnodup⟩
        obtain ⟨d', hd', hname⟩ := List.mem_map.mp hmem
        exact hfresh d' hd' (hname ▸ List.mem_cons_self)
      · intro d' hd'
        rcases List.mem_cons.mp hd' with rfl | hd'
        · exact hseen
        · exact fun hmem => hfresh d' hd' (List.mem_cons_of_mem _ hmem)

theorem nodup_of_distinct {ds ds' : List Declaration} (h : distinct ds = .ok ds') :
    ds' = ds ∧ (ds.map Declaration.name).Nodup := by
  rw [distinct] at h
  split at h
  · exact nomatch h
  · exact ⟨(Except.ok.inj h).symm, (nodup_of_firstDuplicate? ‹_›).1⟩

theorem firstDuplicate?_eq_none {ds : List Declaration} (hnodup : (ds.map Declaration.name).Nodup)
    {seen : List Text} (hseen : ∀ d ∈ ds, d.name ∉ seen) : firstDuplicate? seen ds = none := by
  induction ds generalizing seen with
  | nil => rfl
  | cons d ds ih =>
    obtain ⟨hfresh, hnodup⟩ := List.nodup_cons.mp hnodup
    rw [firstDuplicate?, if_neg (hseen d List.mem_cons_self)]
    refine ih hnodup fun d' hd' hmem => ?_
    rcases List.mem_cons.mp hmem with hname | hmem
    · exact hfresh (List.mem_map.mpr ⟨d', hd', hname⟩)
    · exact hseen d' (List.mem_cons_of_mem d hd') hmem

theorem distinct_eq_ok {ds : List Declaration} (hnodup : (ds.map Declaration.name).Nodup) :
    distinct ds = .ok ds := by
  rw [distinct, firstDuplicate?_eq_none hnodup fun _ _ => List.not_mem_nil]

/-- Two lists of declarations with distinct names have distinct names together, if they have none in
common. -/
theorem nodup_names_append {ds ds' : List Declaration} (h : (ds.map Declaration.name).Nodup)
    (h' : (ds'.map Declaration.name).Nodup) (hdisjoint : ∀ d ∈ ds, ∀ d' ∈ ds', d.name ≠ d'.name) :
    ((ds ++ ds').map Declaration.name).Nodup := by
  rw [List.map_append, List.nodup_append]
  refine ⟨h, h', fun name hname name' hname' => ?_⟩
  obtain ⟨d, hd, rfl⟩ := List.mem_map.mp hname
  obtain ⟨d', hd', rfl⟩ := List.mem_map.mp hname'
  exact hdisjoint d hd d' hd'

/-! ## 4. Parameter lists -/

namespace Signature

/-- A token of a variable is a dollar sign and an identifier. -/
def Token.Named (token : Token) : Prop :=
  token.kind = .variableName → isIdentifier (token.text.drop 1) = true

theorem named_of_tokenize {body : Text} {tokens : List Token} (h : tokenize body = .ok tokens) :
    ∀ token ∈ tokens, token.Named := by
  intro token htoken hkind
  obtain ⟨name, hname, hlexeme⟩ := (worded_of_tokenize h token htoken).variableName hkind
  have htext : token.text = '$' :: name := congrArg Lexeme.text hlexeme
  rw [htext]
  exact hname

theorem isNormal_valueOfNumber {number : Number.Literal} (h : number.IsNormal) :
    (valueOfNumber number).IsNormal := by
  cases number with
  | int n => exact nofun
  | float x =>
    rintro y hy
    rw [← Value.float.inj hy]
    exact h

theorem isNormal_neg {number : Number.Literal} (h : number.IsNormal) : number.neg.IsNormal := by
  cases number with
  | int n => exact trivial
  | float x => exact Number.isNormal_neg h

/-- Every double that is read as a default is in normal form. -/
theorem kept_normal (stop : Nat) :
    Kept stop (fun _ => True) Value.IsNormal (fun _ => True) where
  unexpected what tokens _ := by cases tokens <;> exact trivial
  depth := trivial
  number token _ := by
    refine gives_mapError (fun number hnumber => ?_) fun _ _ => trivial
    have hnormal := isNormal_of_read hnumber
    exact ⟨isNormal_valueOfNumber hnormal, isNormal_valueOfNumber (isNormal_neg hnormal)⟩
  string token _ := gives_mapError (fun _ _ => nofun) fun _ _ => trivial
  null := nofun
  bool _ := nofun
  list _ := nofun
  expression _ := nofun

/-- Whatever default is read, its value is in normal form and an end of the tokens is left. -/
theorem Reading.of_read {stop room fuel : Nat} {r : Reading} {v : Value} {rest : List Token}
    (h : r.read stop fuel room = .ok (v, rest)) : v.IsNormal ∧ rest <:+ r.tokens := by
  have hgives := gives_read (kept_normal stop) (r := r) (fun _ _ => trivial) fuel room
  rw [h] at hgives
  exact hgives

theorem suffix_of_readTypeName {stop : Nat} {tokens rest : List Token} {name : Text}
    (h : readTypeName stop tokens = .ok (name, rest)) : rest <:+ tokens := by
  rw [readTypeName.eq_def] at h
  split at h
  · obtain ⟨⟨token, after⟩, htoken, h⟩ := exists_of_bind_eq_ok h
    obtain ⟨rfl, rfl⟩ := Prod.ext_iff.mp (Except.ok.inj h)
    have hcut := (suffix_of_expectKind htoken).1
    have hdrop : after <:+ tokens.drop 1 := by
      rw [hcut]
      exact List.suffix_cons _ _
    exact hdrop.trans (List.drop_suffix 1 tokens)
  · split at h
    · obtain ⟨rfl, rfl⟩ := Prod.ext_iff.mp (Except.ok.inj h)
      exact List.suffix_cons _ _
    · obtain ⟨rfl, rfl⟩ := Prod.ext_iff.mp (Except.ok.inj h)
      exact List.suffix_refl _

theorem exists_cons_of_readVariable {stop : Nat} {tokens rest : List Token} {name : Text}
    (h : readVariable stop tokens = .ok (name, rest)) :
    ∃ token, tokens = token :: rest ∧ token.kind = .variableName ∧ name = token.text.drop 1 := by
  rw [readVariable.eq_def] at h
  split at h
  · exact nomatch h
  · obtain ⟨⟨token, after⟩, htoken, h⟩ := exists_of_bind_eq_ok h
    obtain ⟨rfl, rfl⟩ := Prod.ext_iff.mp (Except.ok.inj h)
    obtain ⟨hcut, hkind⟩ := suffix_of_expectKind htoken
    exact ⟨token, hcut, hkind, rfl⟩

theorem suffix_of_readVariable {stop : Nat} {tokens rest : List Token} {name : Text}
    (h : readVariable stop tokens = .ok (name, rest)) : rest <:+ tokens := by
  obtain ⟨token, rfl, -⟩ := exists_cons_of_readVariable h
  exact List.suffix_cons token rest

/-- What follows a variable: a default behind an equals sign, or no default. -/
inductive FollowedBy (stop room fuel : Nat) (tokens : List Token) :
    Option Literal → List Token → Prop
  | nothing (h : startsWith '=' tokens = false) : FollowedBy stop room fuel tokens none tokens
  | default {value : Value} {l : Literal} {rest : List Token}
      (hequals : startsWith '=' tokens = true)
      (hvalue : readDefault stop room fuel (tokens.drop 1) = .ok (value, rest))
      (hl : Literal.ofValue value = .ok l) : FollowedBy stop room fuel tokens (some l) rest

theorem FollowedBy.suffix {stop room fuel : Nat} {tokens rest : List Token}
    {default : Option Literal} (h : FollowedBy stop room fuel tokens default rest) :
    rest <:+ tokens := by
  cases h with
  | nothing => exact List.suffix_refl _
  | default _ hvalue _ =>
    have hrest := (Reading.of_read (r := .default (tokens.drop 1)) hvalue).2
    exact hrest.trans (List.drop_suffix 1 tokens)

theorem FollowedBy.sound {stop room fuel : Nat} {tokens rest : List Token}
    {default : Option Literal} (h : FollowedBy stop room fuel tokens default rest) :
    ∀ l, default = some l → l.Sound := by
  rintro l rfl
  cases h with
  | default _ hvalue hl =>
    exact Literal.sound_of_ofValue (Reading.of_read (r := .default (tokens.drop 1)) hvalue).1 hl

/-- What a declaration is made of: a type name, a variable and what follows it. -/
theorem exists_of_readParameter {stop room fuel : Nat} {tokens rest : List Token} {d : Declaration}
    (h : readParameter stop room fuel tokens = .ok (d, rest)) :
    ∃ typeName afterType afterName typing,
      readTypeName stop tokens = .ok (typeName, afterType) ∧
      readVariable stop afterType = .ok (d.name, afterName) ∧
      typingOfName typeName = .ok typing ∧
      FollowedBy stop room fuel afterName d.default rest ∧ d.inBody = .ok d ∧
      d = { name := d.name
            required := d.default.isNone
            type := typing.type
            default := d.default
            nullable := typing.nullable } := by
  obtain ⟨⟨typeName, afterType⟩, htype, h⟩ := exists_of_bind_eq_ok h
  obtain ⟨⟨name, afterName⟩, hname, h⟩ := exists_of_bind_eq_ok h
  obtain ⟨typing, htyping, h⟩ := exists_of_bind_eq_ok h
  dsimp only at h
  split at h
  · rename_i hequals
    obtain ⟨⟨value, left⟩, hvalue, h⟩ := exists_of_bind_eq_ok h
    obtain ⟨l, hl, h⟩ := exists_of_bind_eq_ok h
    obtain ⟨d', hd, h⟩ := exists_of_bind_eq_ok h
    obtain ⟨rfl, rfl⟩ := Prod.ext_iff.mp (Except.ok.inj h)
    obtain rfl := eq_of_inBody hd
    exact ⟨typeName, afterType, afterName, typing, htype, hname, eq_ok_of_mapError htyping,
      .default hequals hvalue (eq_ok_of_mapError hl), hd, rfl⟩
  · rename_i hequals
    obtain ⟨d', hd, h⟩ := exists_of_bind_eq_ok h
    obtain ⟨rfl, rfl⟩ := Prod.ext_iff.mp (Except.ok.inj h)
    obtain rfl := eq_of_inBody hd
    exact ⟨typeName, afterType, afterName, typing, htype, hname, eq_ok_of_mapError htyping,
      .nothing (by simpa using hequals), hd, rfl⟩

theorem suffix_of_readParameter {stop room fuel : Nat} {tokens rest : List Token} {d : Declaration}
    (h : readParameter stop room fuel tokens = .ok (d, rest)) : rest <:+ tokens := by
  obtain ⟨_, _, _, _, htype, hname, _, hdefault, _⟩ := exists_of_readParameter h
  exact (hdefault.suffix.trans (suffix_of_readVariable hname)).trans (suffix_of_readTypeName htype)

theorem sound_of_readParameter {stop room fuel : Nat} {tokens rest : List Token} {d : Declaration}
    (hnamed : ∀ token ∈ tokens, token.Named)
    (h : readParameter stop room fuel tokens = .ok (d, rest)) : d.Sound := by
  obtain ⟨_, _, _, _, htype, hname, _, hdefault, hbody, _⟩ := exists_of_readParameter h
  obtain ⟨token, rfl, hkind, hname⟩ := exists_cons_of_readVariable hname
  have hidentifier : isIdentifier d.name = true := by
    rw [hname]
    exact hnamed token ((suffix_of_readTypeName htype).subset List.mem_cons_self) hkind
  exact sound_of_inBody hidentifier hdefault.sound hbody

/-- Each declaration of a list is read where an end of the tokens begins. -/
theorem exists_readParameter_of_mem {stop room fuel : Nat} {tokens : List Token}
    {ds : List Declaration} (h : readParameters stop room fuel tokens = .ok ds) :
    ∀ d ∈ ds, ∃ fuel left rest, left <:+ tokens ∧
      readParameter stop room fuel left = .ok (d, rest) := by
  induction fuel generalizing tokens ds with
  | zero =>
    cases tokens with
    | nil =>
      obtain rfl := Except.ok.inj h
      exact fun d hd => absurd hd List.not_mem_nil
    | cons token tokens => exact absurd h unexpected_ne_ok
  | succ fuel ih =>
    cases tokens with
    | nil =>
      obtain rfl := Except.ok.inj h
      exact fun d hd => absurd hd List.not_mem_nil
    | cons token tokens =>
      obtain ⟨⟨d, rest⟩, hd, h⟩ := exists_of_bind_eq_ok h
      have hsuffix := suffix_of_readParameter hd
      dsimp only at h
      split at h
      · obtain rfl := Except.ok.inj h
        intro d' hd'
        rw [List.mem_singleton.mp hd']
        exact ⟨_, _, _, List.suffix_refl _, hd⟩
      · split at h
        · obtain ⟨others, hothers, h⟩ := exists_of_bind_eq_ok h
          obtain rfl := Except.ok.inj h
          have hlater := (List.drop_suffix 1 rest).trans hsuffix
          intro d' hd'
          rcases List.mem_cons.mp hd' with rfl | hd'
          · exact ⟨_, _, _, List.suffix_refl _, hd⟩
          · obtain ⟨fuel', left, rest', hleft, hread⟩ := ih hothers d' hd'
            exact ⟨fuel', left, rest', hleft.trans hlater, hread⟩
        · exact absurd h unexpected_ne_ok

/-- Each declaration of a parameter list is read from some of its tokens. -/
theorem exists_readParameter {body : Text} {room : Nat} {ds : List Declaration}
    (h : declarations body room = .ok ds) :
    ∃ tokens, tokenize body = .ok tokens ∧ (ds.map Declaration.name).Nodup ∧
      ∀ d ∈ ds, ∃ fuel left rest, left <:+ tokens ∧
        readParameter body.length room fuel left = .ok (d, rest) := by
  obtain ⟨tokens, htokens, h⟩ := exists_of_bind_eq_ok h
  obtain ⟨read, hread, h⟩ := exists_of_bind_eq_ok h
  obtain ⟨rfl, hnodup⟩ := nodup_of_distinct h
  exact ⟨tokens, eq_ok_of_mapError htokens, hnodup, exists_readParameter_of_mem hread⟩

/-- A parameter list declares different names, all sound. -/
theorem sound_of_declarations {body : Text} {room : Nat} {ds : List Declaration}
    (h : declarations body room = .ok ds) :
    (∀ d ∈ ds, d.Sound) ∧ (ds.map Declaration.name).Nodup := by
  obtain ⟨tokens, htokens, hnodup, hread⟩ := exists_readParameter h
  have hnamed := named_of_tokenize htokens
  refine ⟨fun d hd => ?_, hnodup⟩
  obtain ⟨fuel, left, rest, hleft, hd⟩ := hread d hd
  exact sound_of_readParameter (fun token htoken => hnamed token (hleft.subset htoken)) hd

end Signature

/-! ## 5. Doc comments, and annotations -/

namespace Docblock

theorem isIdentifier_of_leadingVariable? {t name description : Text}
    (h : leadingVariable? t = some (name, description)) : isIdentifier name = true := by
  rw [leadingVariable?.eq_def] at h
  split at h
  · split at h
    · exact nomatch h
    · rename_i hname
      dsimp only at h
      split at h
      · obtain ⟨rfl, rfl⟩ := Prod.ext_iff.mp (Option.some.inj h)
        exact (isIdentifier_of_leadingIdentifier? hname).1
      · exact nomatch h
  · exact nomatch h

/-- What a declaration is made of: the members of the type, the variable, and the default that its
description gives. -/
theorem Tag.exists_of_declaration {tag : Tag} {d : Declaration} (h : tag.declaration = .ok d) :
    ∃ ms rest description default, tag.typeMembers (trim tag.rest) = .ok (ms, rest) ∧
      leadingVariable? rest = some (d.name, description) ∧
      defaultOfMarker (marker? description) (Typing.ofMembers ms).type = .ok default ∧
      d.inBody = .ok d ∧
      d = { name := d.name
            required := (marker? description).isNone && !(Typing.ofMembers ms).nullable
            type := (Typing.ofMembers ms).type
            default := default
            nullable := (Typing.ofMembers ms).nullable } := by
  rw [declaration] at h
  dsimp only at h
  split at h
  · exact nomatch h
  · obtain ⟨⟨ms, rest⟩, hms, h⟩ := exists_of_bind_eq_ok h
    dsimp only at h
    split at h
    · exact nomatch h
    · rename_i name description hvariable
      obtain ⟨default, hdefault, h⟩ := exists_of_bind_eq_ok h
      obtain rfl := eq_of_inBody h
      exact ⟨ms, rest, description, default, eq_ok_of_mapError hms, hvariable, hdefault, h, rfl⟩

theorem Tag.sound_of_declaration {tag : Tag} {d : Declaration} (h : tag.declaration = .ok d) :
    d.Sound := by
  obtain ⟨_, _, _, default, _, hvariable, hdefault, hbody, hd⟩ := exists_of_declaration h
  refine sound_of_inBody (isIdentifier_of_leadingVariable? hvariable) (fun l hl => ?_) hbody
  rw [hd] at hl
  obtain rfl : default = some l := hl
  rw [defaultOfMarker.eq_def] at hdefault
  split at hdefault
  · exact nomatch hdefault
  · exact Literal.sound_of_ofText (eq_ok_of_mapError hdefault)

/-- Each declaration of a doc comment is that of a tag. -/
theorem exists_tag_of_mem {tags : List Tag} {ds : List Declaration}
    (h : declarationsOf tags = .ok ds) : ∀ d ∈ ds, ∃ tag : Tag, tag.declaration = .ok d := by
  induction tags generalizing ds with
  | nil =>
    obtain rfl := Except.ok.inj h
    exact fun d hd => absurd hd List.not_mem_nil
  | cons tag tags ih =>
    rw [declarationsOf] at h
    split at h
    · obtain ⟨d, hd, h⟩ := exists_of_bind_eq_ok h
      obtain ⟨others, hothers, h⟩ := exists_of_bind_eq_ok h
      obtain rfl := Except.ok.inj h
      intro d' hd'
      rcases List.mem_cons.mp hd' with rfl | hd'
      · exact ⟨tag, hd⟩
      · exact ih hothers d' hd'
    · exact ih h

/-- The declarations of a doc comment have different names. -/
theorem exists_tag {body : Text} {ds : List Declaration} (h : (declarations body).value = .ok ds) :
    (ds.map Declaration.name).Nodup ∧ ∀ d ∈ ds, ∃ tag : Tag, tag.declaration = .ok d := by
  obtain ⟨read, hread, h⟩ := exists_of_bind_eq_ok h
  obtain ⟨rfl, hnodup⟩ := nodup_of_distinct h
  exact ⟨hnodup, exists_tag_of_mem hread⟩

/-- A doc comment declares different names, all sound. -/
theorem sound_of_declarations {body : Text} {ds : List Declaration}
    (h : (declarations body).value = .ok ds) :
    (∀ d ∈ ds, d.Sound) ∧ (ds.map Declaration.name).Nodup := by
  obtain ⟨hnodup, htags⟩ := exists_tag h
  refine ⟨fun d hd => ?_, hnodup⟩
  obtain ⟨tag, hd⟩ := htags d hd
  exact Tag.sound_of_declaration hd

end Docblock

namespace Annotation

/-- The declarations of an annotation have different names, and all are sound. -/
theorem sound_of_read {form : Form} {body : Text} {ds : List Declaration}
    (h : (read form body).value = .ok ds) :
    (∀ d ∈ ds, d.Sound) ∧ (ds.map Declaration.name).Nodup := by
  cases form with
  | expression => exact Signature.sound_of_declarations h
  | block => exact Docblock.sound_of_declarations h

end Annotation

end ViewContract
