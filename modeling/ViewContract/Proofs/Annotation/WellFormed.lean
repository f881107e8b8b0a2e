/-
ViewContract.Proofs.Annotation.WellFormed — well-formed declarations, and their guards.

Whatever either notation yields is well formed, and so its guards are lines of text, one for each
check:

  §1 class paths. A path is checked up to the end of a line only, so that it has no line feed
     comes from the name tokens and type members that it is made of.
  §2 what the notations promise of a declaration, in common (`Declaration.WellFormed`) and each on
     its own (`Form.Promises`).
  §3 annotations of either form, and the lines of their guards (`wellFormed_of_read`). There are
     no guards at all if a default is an integer with too many digits, which can be read but not
     written (`not_forall_exists_guardText`).
-/
import ViewContract.Proofs.Docblock.Union
import ViewContract.Proofs.Guard.Statements
import ViewContract.Proofs.Signature.Parameter

namespace ViewContract

open Text

/-! ## 1. Class paths -/

/-- A type whose class path, if it has one, is a dotted path. -/
def TypeRef.Dotted (type : TypeRef) : Prop :=
  ∀ path, type = .ofClass path → isDottedPath path = true

theorem dotted_primitive (kind : Kind) : (TypeRef.primitive kind).Dotted := nofun

theorem dotted_ofClass {name : Text} (h : ClassName name) :
    (TypeRef.ofClass (normalizePath name)).Dotted := by
  intro path hpath
  obtain rfl := TypeRef.ofClass.inj hpath
  exact isDottedPath_normalizePath h

theorem dotted_ofName {name : Text} (h : ClassName name) : (TypeRef.ofName name).Dotted := by
  unfold TypeRef.ofName
  split
  · exact dotted_primitive _
  · exact dotted_ofClass h

namespace Signature

/-- What stands for a type in a parameter: nothing, or a class name, perhaps behind a question
mark. -/
theorem className_of_readTypeName {stop : Nat} {tokens rest : List Token} {raw : Text}
    (hnames : ∀ token ∈ tokens, token.kind = .name → ClassName token.text)
    (h : readTypeName stop tokens = .ok (raw, rest)) : raw = [] ∨
      ∃ (name : Text) (nullable : Bool),
        ClassName name ∧ raw = (if nullable then ['?'] else []) ++ name := by
  rw [readTypeName.eq_def] at h
  split at h
  · obtain ⟨⟨token, after⟩, htoken, h⟩ := exists_of_bind_eq_ok h
    obtain ⟨rfl, rfl⟩ := Prod.ext_iff.mp (Except.ok.inj h)
    obtain ⟨hcut, hkind⟩ := suffix_of_expectKind htoken
    have hmem : token ∈ tokens := by
      refine (List.drop_suffix 1 tokens).subset ?_
      rw [hcut]
      exact List.mem_cons_self
    exact .inr ⟨token.text, true, hnames token hmem hkind, rfl⟩
  · split at h
    · rename_i text _ _ _
      obtain ⟨rfl, rfl⟩ := Prod.ext_iff.mp (Except.ok.inj h)
      exact .inr ⟨text, false, hnames _ List.mem_cons_self rfl, rfl⟩
    · obtain ⟨rfl, rfl⟩ := Prod.ext_iff.mp (Except.ok.inj h)
      exact .inl rfl

theorem dotted_of_typingOfName {raw : Text} {typing : Typing}
    (hraw : raw = [] ∨ ∃ (name : Text) (nullable : Bool), ClassName name ∧
      raw = (if nullable then ['?'] else []) ++ name)
    (h : typingOfName raw = .ok typing) : ∀ type, typing.type = some type → type.Dotted := by
  intro type htype
  rcases hraw with rfl | ⟨name, nullable, hname, rfl⟩
  · obtain rfl := Except.ok.inj h
    exact nomatch htype
  · rw [typingOfName_written hname nullable] at h
    obtain rfl := Except.ok.inj h
    obtain rfl := Option.some.inj htype
    exact dotted_ofName hname

end Signature

namespace Docblock

/-- A member that is the null marker, a pseudo-type, or a type with a dotted path. -/
def Dotted (m : Member) : Prop :=
  ∀ type, m = .type type → type.Dotted

theorem dotted_of_readMember {member : Text} {m : Member} (h : readMember member = .single m) :
    Dotted m := by
  unfold readMember at h
  dsimp only at h
  intro type htype
  split at h
  · obtain rfl := Reading.single.inj h
    exact nomatch htype
  · split at h
    · obtain rfl := Reading.single.inj h
      obtain rfl := Member.type.inj htype
      exact dotted_primitive _
    · split at h
      · obtain rfl := Reading.single.inj h
        obtain rfl := Member.type.inj htype
        exact dotted_primitive _
      · split at h
        · obtain rfl := Reading.single.inj h
          exact nomatch htype
        · split at h
          · exact nomatch h
          · split at h
            · obtain rfl := Reading.single.inj h
              obtain rfl := Member.type.inj htype
              exact dotted_ofClass (isClassName_iff.mp ‹_›)
            · exact nomatch h

theorem dotted_of_readUnmarked {read : Text → Except GrammarFault (List Member)}
    (hread : ∀ {t ms}, read t = .ok ms → ∀ m ∈ ms, Dotted m) {line : Nat} {member : Text}
    {ms : List Member} (h : readUnmarked read line member = .ok ms) : ∀ m ∈ ms, Dotted m := by
  rw [readUnmarked] at h
  split at h
  · obtain rfl := Except.ok.inj h
    exact List.forall_mem_singleton.mpr (dotted_of_readMember ‹_›)
  · exact hread h
  · cases h

theorem dotted_of_readPieces {read : Text → Except GrammarFault (List Member)}
    (hread : ∀ {t ms}, read t = .ok ms → ∀ m ∈ ms, Dotted m) {expr : Text} {line : Nat}
    {pieces : List Text} {ms : List Member} (h : readPieces read expr line pieces = .ok ms) :
    ∀ m ∈ ms, Dotted m := by
  induction pieces generalizing ms with
  | nil =>
    obtain rfl := Except.ok.inj h
    exact fun m hm => absurd hm List.not_mem_nil
  | cons piece pieces ih =>
    obtain ⟨-, own, others, hown, hothers, rfl⟩ := readPieces_cons_eq_ok_iff.mp h
    intro m hm
    rw [List.mem_append, List.mem_append] at hm
    rcases hm with (hm | hm) | hm
    · -- the null marker
      split at hm
      · rw [List.mem_singleton.mp hm]
        exact nofun
      · cases hm
    · exact dotted_of_readUnmarked hread hown m hm
    · exact ih hothers m hm

theorem dotted_of_members {line : Nat} {expr : Text} {ms : List Member}
    (h : members line expr = .ok ms) : ∀ m ∈ ms, Dotted m := by
  have hwithin : ∀ (fuel : Nat) {t : Text} {ms : List Member},
      membersWithin line fuel t = .ok ms → ∀ m ∈ ms, Dotted m := by
    intro fuel
    induction fuel with
    | zero => exact fun h => nomatch h
    | succ fuel ih => exact fun h => dotted_of_readPieces ih h
  exact hwithin _ h

/-- The type of a union is one of its members. -/
theorem dotted_of_ofMembers {ms : List Member} (hms : ∀ m ∈ ms, Dotted m) :
    ∀ type, (Typing.ofMembers ms).type = some type → type.Dotted := by
  rw [Typing.ofMembers_eq]
  intro type htype
  obtain ⟨m, hm, htype⟩ := List.mem_filterMap.mp (List.mem_of_getLast? htype)
  cases m with
  | type t =>
    obtain rfl := Option.some.inj htype
    exact hms _ hm t rfl
  | null => cases htype
  | ignored name => cases htype

theorem dotted_of_typeMembers {tag : Tag} {rest after : Text} {ms : List Member}
    (h : tag.typeMembers rest = .ok (ms, after)) :
    ∀ type, (Typing.ofMembers ms).type = some type → type.Dotted := by
  refine dotted_of_ofMembers fun m hm => ?_
  rw [Tag.typeMembers] at h
  split at h
  · obtain ⟨rfl, rfl⟩ := Prod.mk.inj (Except.ok.inj h)
    exact absurd hm List.not_mem_nil
  · obtain ⟨⟨expr, left⟩, _, h⟩ := exists_of_bind_eq_ok h
    obtain ⟨members, hmembers, h⟩ := exists_of_bind_eq_ok h
    obtain ⟨rfl, rfl⟩ := Prod.mk.inj (Except.ok.inj h)
    exact dotted_of_members hmembers m hm

end Docblock

/-! ## 2. Promises -/

/-- A declaration that guards can be made of. -/
structure Declaration.WellFormed (d : Declaration) : Prop where
  name : isIdentifier d.name = true
  notReserved : isReserved d.name = false
  optional : d.default ≠ none → d.required = false
  path : ∀ path, d.type = some (.ofClass path) → isDottedPath path = true ∧ '\\' ∉ path
  finite : ∀ x, d.default = some (.float x) → x.isFinite = true

/-- What one notation promises of its declarations. In a parameter list a variable is required
exactly if it has no default; in a doc comment a default other than null has a kind to be read
as, and a required variable does not admit null. -/
def Form.Promises : Form → Declaration → Prop
  | .expression, d => d.required = true ↔ d.default = none
  | .block, d =>
    (∀ l, d.default = some l → l ≠ .null → ∃ kind, d.type = some (.primitive kind)) ∧
      (d.required = true → d.nullable = false)

theorem Literal.Sound.isFinite {x : Number.Binary64} (h : (Literal.float x).Sound) :
    x.isFinite = true := by
  cases x with
  | finite negative m e => rfl
  | infinite negative => exact absurd h id
  | nan => exact absurd h id

theorem Declaration.Sound.wellFormed {d : Declaration} (hd : d.Sound)
    (hoptional : d.default ≠ none → d.required = false)
    (htype : ∀ type, d.type = some type → type.Dotted) : d.WellFormed where
  name := hd.name
  notReserved := hd.notReserved
  optional := hoptional
  path path hpath := by
    have hdotted := htype _ hpath path rfl
    obtain ⟨_, _, _, _, _, hslash⟩ := exists_of_isDottedPath hdotted
    exact ⟨hdotted, hslash⟩
  finite x hx := (hd.default _ hx).isFinite

theorem Signature.promises_of_readParameter {stop room fuel : Nat} {tokens rest : List Token}
    {d : Declaration} (hnames : ∀ token ∈ tokens, token.kind = .name → ClassName token.text)
    (h : readParameter stop room fuel tokens = .ok (d, rest)) :
    (d.default ≠ none → d.required = false) ∧ (∀ type, d.type = some type → type.Dotted) ∧
      Form.expression.Promises d := by
  obtain ⟨_, _, _, typing, htype, _, htyping, hdefault, _, hd⟩ := exists_of_readParameter h
  have hdotted := dotted_of_typingOfName (className_of_readTypeName hnames htype) htyping
  rw [hd]
  exact ⟨fun hne => by simpa [Option.isSome_iff_ne_none] using hne, hdotted,
    by simp [Form.Promises]⟩

theorem Docblock.promises_of_declaration {tag : Tag} {d : Declaration}
    (h : tag.declaration = .ok d) :
    (d.default ≠ none → d.required = false) ∧ (∀ type, d.type = some type → type.Dotted) ∧
      Form.block.Promises d := by
  obtain ⟨ms, _, description, default, hms, _, hdefault, _, hd⟩ := Tag.exists_of_declaration h
  rw [hd]
  refine ⟨fun hne => ?_, dotted_of_typeMembers hms, ?_, ?_⟩
  · cases hmarker : marker? description with
    | none =>
      rw [hmarker] at hdefault
      exact absurd (Except.ok.inj hdefault).symm hne
    | some marker => rfl
  · rintro l rfl hl
    unfold defaultOfMarker at hdefault
    split at hdefault
    · cases hdefault
    · obtain ⟨kind, hkind, _⟩ :=
        (exists_stands_of_ofText (eq_ok_of_mapError hdefault)).resolve_left hl
      exact ⟨kind, hkind⟩
  · intro hrequired
    simpa using (Bool.and_eq_true_iff.mp hrequired).2

/-! ## 3. Annotations -/

namespace Annotation

variable {form : Form} {body : Text} {ds : List Declaration}

theorem promises_of_read (h : (read form body).value = .ok ds) : ∀ d ∈ ds,
    (d.default ≠ none → d.required = false) ∧ (∀ type, d.type = some type → type.Dotted) ∧
      form.Promises d := by
  intro d hd
  cases form with
  | expression =>
    obtain ⟨tokens, htokens, _, hread⟩ := Signature.exists_readParameter h
    obtain ⟨fuel, left, rest, hleft, hd⟩ := hread d hd
    have hworded := Signature.worded_of_tokenize htokens
    refine Signature.promises_of_readParameter (fun token htoken => ?_) hd
    exact (hworded token (hleft.subset htoken)).className
  | block =>
    obtain ⟨_, htags⟩ := Docblock.exists_tag h
    obtain ⟨tag, hd⟩ := htags d hd
    exact Docblock.promises_of_declaration hd

/-- No statement of well-formed declarations has a line feed inside. -/
theorem oneLine_of_statements {δ : Delimiters} (hδ : δ.OneLine) (hds : ∀ d ∈ ds, d.WellFormed)
    {statements : List Text}
    (h : Guard.Statements δ 0 (ds.flatMap Declaration.guards) statements) :
    ∀ statement ∈ statements, '\n' ∉ statement := by
  intro statement hmem
  obtain ⟨i, hi⟩ := List.mem_iff_getElem?.mp hmem
  obtain ⟨g, hg, hstatement⟩ := h.exists_guard hi
  obtain ⟨d, hd, hgd⟩ := List.mem_flatMap.mp (List.mem_of_getElem? hg)
  refine Guard.oneLine_statement hδ ?_ hstatement
  rw [Declaration.name_of_mem_guards hgd]
  exact not_mem_of_isIdentifier (hds d hd).name (by decide)

/-- **Whatever an annotation declares is well formed**: different names, each declaration as its
notation promises. Its guards have a text exactly if no default is an integer with too many digits,
and then the text is one statement for each variable and one more for each type, in order, line by
line. -/
theorem wellFormed_of_read (h : (read form body).value = .ok ds) :
    (ds.map Declaration.name).Nodup ∧ (∀ d ∈ ds, d.WellFormed ∧ form.Promises d) ∧
    ∀ δ : Delimiters, δ.OneLine →
      ((∃ text, guardText δ ds = .ok text) ↔ ∀ d ∈ ds, ¬ d.TooLong) ∧
      ∀ text, guardText δ ds = .ok text → ∃ statements,
        Guard.Statements δ 0 (ds.flatMap Declaration.guards) statements ∧
        statements.length = ds.length + ds.countP (·.type.isSome) ∧
        (∀ statement ∈ statements, '\n' ∉ statement) ∧
        text = ['\n'].intercalate statements ∧ (ds ≠ [] → splitOn '\n' text = statements) := by
  obtain ⟨hsound, hnodup⟩ := sound_of_read h
  have hpromises := promises_of_read h
  have hwell : ∀ d ∈ ds, d.WellFormed := fun d hd =>
    (hsound d hd).wellFormed (hpromises d hd).1 (hpromises d hd).2.1
  refine ⟨hnodup, fun d hd => ⟨hwell d hd, (hpromises d hd).2.2⟩, fun δ hδ => ⟨?_, ?_⟩⟩
  · rw [exists_guardText_iff]
    refine forall₂_congr fun d _ => ?_
    rw [Declaration.tooLong_iff, not_not]
  · intro text htext
    obtain ⟨statements, hstatements, rfl⟩ := guardText_eq_ok_iff.mp htext
    have hlength : statements.length = ds.length + ds.countP (·.type.isSome) := by
      rw [hstatements.length_eq, length_flatMap_guards]
    have hlines := oneLine_of_statements hδ hwell hstatements
    refine ⟨statements, hstatements, hlength, hlines, rfl, fun hne => ?_⟩
    refine splitOn_intercalate_statements ?_ hlines
    rintro rfl
    have := List.length_pos_iff.mpr hne
    rw [List.length_nil] at hlength
    omega

/-- A variable of a class, and an integer with a default. -/
def typedList : Text :=
  "App\\User $user, int $n = 5".toList

/-- The declarations of this list, and the four lines of their guards. -/
theorem wellFormed_of_read_of_typedList : ∃ ds text,
    (read .expression typedList).value = .ok ds ∧ (∀ d ∈ ds, d.WellFormed) ∧
      guardText {} ds = .ok text ∧ (splitOn '\n' text).length = 4 := by
  let ds : List Declaration :=
    [{ name := "user".toList, type := some (.ofClass "App.User".toList) },
      { name := "n".toList, required := false, type := some (.primitive .int),
        default := some (.int 5) }]
  have hread : (read .expression typedList).value = .ok ds := by decide +kernel
  obtain ⟨_, hwell, hguards⟩ := wellFormed_of_read hread
  obtain ⟨hexists, hlines⟩ := hguards {} Delimiters.oneLine_default
  obtain ⟨text, htext⟩ := hexists.mpr (by decide +kernel)
  obtain ⟨statements, _, hlength, _, _, hsplit⟩ := hlines text htext
  refine ⟨ds, text, hread, fun d hd => (hwell d hd).1, htext, ?_⟩
  rw [hsplit (List.cons_ne_nil _ _), hlength]
  rfl

/-- An integer of 4302 decimal digits, written in base sixteen: its digits are not counted. -/
def longDefault : Text :=
  "int $x = 0x1".toList ++ List.replicate 3572 '0'

/-- The declaration of this list. -/
def longDeclaration : Declaration where
  name := "x".toList
  required := false
  type := some (.primitive .int)
  default := some (.int (16 ^ 3572))

/-- What an annotation declares may have no guards. -/
theorem not_forall_exists_guardText :
    ¬ ∀ (form : Form) (body : Text) (ds : List Declaration) (δ : Delimiters),
      (read form body).value = .ok ds → δ.OneLine → ∃ text, guardText δ ds = .ok text := by
  intro h
  have hread : (read .expression longDefault).value = .ok [longDeclaration] := by
    decide +kernel
  have hlong : longDeclaration.TooLong := by
    decide +kernel
  obtain ⟨text, htext⟩ := h _ _ _ {} hread Delimiters.oneLine_default
  have hfails : guardText {} [longDeclaration] = .error .digits :=
    guardText_eq_error_iff.mpr ⟨rfl, longDeclaration, List.mem_cons_self, hlong⟩
  rw [hfails] at htext
  exact nomatch htext

end Annotation

end ViewContract
