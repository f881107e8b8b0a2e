/-
ViewContract.Proofs.Template.Marks — marks that are read as they are written.

The marks of an environment can be any texts, and some of them change how a tag is read: an
end mark that is a word ends a tag at that word, and an opening mark that goes on with a
blank after another one hides it. `Regular` collects what has to hold so that a tag is read
as it is written. It does not ask that no mark begin another: of two openings the longer one
is tried first, so `<%` for blocks goes together with `<%=` for outputs.

  §1 regular environments.
  §2 in such an environment a mark with a blank or a minus behind it opens its own tag
     (`opening?_mark`), and nothing opens at a line feed (`opening?_lineFeed`).
  §3 an end mark ends a tag (`tagEnd?_mark`), and nothing that begins like a lexeme does
     (`tagEnd?_eq_none`).
-/
import ViewContract.Proofs.Template.Lexeme
import Mathlib.Data.List.Infix

namespace ViewContract.Template

open ViewContract.Text

/-! ## 1. Regular environments -/

/-- Whether a character may begin a lexeme of a guard. -/
def beginsLexeme (c : Char) : Bool :=
  isIdentifierPart c || c = '"' || c = '(' || c = ')' || c = ',' || c = '=' || c = '-'

/-- The mark that begins a tag. -/
def TagKind.startMark (δ : Delimiters) : TagKind → Text
  | .output => δ.variableStart
  | _ => δ.blockStart

/-- The mark that ends a tag. -/
def TagKind.endMark (δ : Delimiters) : TagKind → Text
  | .output => δ.variableEnd
  | _ => δ.blockEnd

/-- The token of the mark that begins a tag. -/
def TagKind.startToken : TagKind → TokenKind
  | .output => .outputBegin
  | _ => .blockBegin

/-- The token of the mark that ends a tag. -/
def TagKind.endToken : TagKind → TokenKind
  | .output => .outputEnd
  | _ => .blockEnd

/-- A mark that goes on after another one with a character that may stand behind the
other one in a guard. -/
def HidesMark (m mark : Text) : Prop :=
  ∃ s, (s = ' ' ∨ s = '-') ∧ mark ++ [s] <+: m

/-- An environment whose tags are read as they are written. -/
structure Environment.Regular (env : Environment) : Prop where
  /-- The opening marks differ. -/
  distinct : (tagMarks env).Pairwise fun a b => a.2 ≠ b.2
  /-- None of them begins with a blank. -/
  starts : ∀ a ∈ tagMarks env, ∃ c rest, a.2 = c :: rest ∧ isBlank c = false
  /-- None of them hides the mark of a guard. -/
  plain : ∀ a ∈ tagMarks env, ∀ kind : TagKind, ¬ HidesMark a.2 (kind.startMark env.delimiters)
  /-- What makes an output of a block does not make a raw block of it. -/
  notRaw : ∀ c rest, env.delimiters.variableStart = env.delimiters.blockStart ++ c :: rest →
    c ≠ '-' ∧ c ≠ '+' ∧ c ≠ 'r' ∧ isBlank c = false
  /-- The end marks begin with a character that begins no lexeme. -/
  ends : ∀ kind : TagKind, ∃ c rest, kind.endMark env.delimiters = c :: rest ∧
    beginsLexeme c = false ∧ isBlank c = false ∧ c ≠ '+'
  /-- Marks stand on one line. -/
  oneLine : ∀ kind : TagKind, ∀ c ∈ kind.startMark env.delimiters ++ kind.endMark env.delimiters,
    c ≠ '\n' ∧ c ≠ '\r'

/-- The usual environment is regular. -/
theorem regular_default : ({} : Environment).Regular := by
  have hmarks : ∀ a ∈ tagMarks {}, a.2.length = 2 ∧
      ∃ c rest, a.2 = c :: rest ∧ isBlank c = false := by
    intro a ha
    have h : a = (.outputBegin, "\x7b\x7b".toList) ∨ a = (.commentBegin, "\x7b#".toList) ∨
        a = (.blockBegin, "\x7b%".toList) := by
      revert a
      decide +kernel
    rcases h with rfl | rfl | rfl <;> exact ⟨rfl, _, _, rfl, by decide⟩
  have hstart : ∀ kind : TagKind, (kind.startMark {}).length = 2 := by
    intro kind
    cases kind <;> rfl
  refine ⟨by decide +kernel, fun a ha => (hmarks a ha).2, ?_, ?_, ?_, ?_⟩
  · rintro a ha kind ⟨s, _, h⟩
    have hlength := h.length_le
    have hstart := hstart kind
    rw [List.length_append, (hmarks a ha).1, hstart, List.length_singleton] at hlength
    exact absurd hlength (by decide)
  · intro c rest h
    exact nomatch h
  · intro kind
    cases kind <;> exact ⟨_, _, rfl, by decide⟩
  · intro kind
    cases kind <;> exact forall_mem_of_all (by decide)

/-! ## 2. Openings -/

/-- The first of sorted items at which something is found, if every other such item is
greater. -/
theorem findSome?_of_sorted {α β : Type} {key : α → Int} {f : α → Option β} {a : α} {b : β} :
    ∀ {l : List α}, l.Pairwise (key · ≤ key ·) → a ∈ l → f a = some b →
      (∀ x ∈ l, f x ≠ none → x = a ∨ key a < key x) → l.findSome? f = some b
  | [], _, ha, _, _ => absurd ha List.not_mem_nil
  | x :: l, hsorted, ha, hb, hother => by
    rw [List.pairwise_cons] at hsorted
    rw [List.findSome?_cons]
    cases hx : f x with
    | some y =>
      rcases hother x List.mem_cons_self (by rw [hx]; exact nofun) with rfl | hlt
      · rw [hb] at hx
        exact hx.symm
      · -- `a` comes later although it is smaller
        rcases List.mem_cons.mp ha with rfl | ha
        · exact absurd hlt (Int.lt_irrefl _)
        · exact absurd (hsorted.1 a ha) (Int.not_le.mpr hlt)
    | none =>
      have hne : a ≠ x := fun h => by rw [← h, hb] at hx; exact nomatch hx
      exact findSome?_of_sorted hsorted.2 ((List.mem_cons.mp ha).resolve_left hne) hb
        fun y hy => hother y (List.mem_cons_of_mem x hy)

theorem markLength?_eq_some {mark t : Text} {n : Nat} (h : markLength? mark t = some n) :
    mark <+: t ∧ n = mark.length := by
  rw [markLength?] at h
  split at h
  · rename_i hpre
    exact ⟨List.isPrefixOf_iff_prefix.mp hpre, (Option.some.inj h).symm⟩
  · exact nomatch h

theorem markLength?_append (mark t : Text) : markLength? mark (mark ++ t) = some mark.length := by
  rw [markLength?, if_pos (List.isPrefixOf_iff_prefix.mpr (List.prefix_append mark t))]

theorem markLength?_of_head_ne {c d : Char} {mark t : Text} (h : c ≠ d) :
    markLength? (c :: mark) (d :: t) = none := by
  simp [markLength?, List.isPrefixOf, h]

/-- What stands behind a mark that begins a tag: a minus, or nothing. -/
def signText (trim : Bool) : Text :=
  if trim then ['-'] else []

/-- What stands behind a mark that begins a tag, as a sign. -/
def signOf (trim : Bool) : Option Char :=
  if trim then some '-' else none

theorem sign?_signText (trim : Bool) (t : Text) :
    sign? (signText trim ++ ' ' :: t) = signOf trim := by
  cases trim <;> rfl

theorem length_signText (trim : Bool) : (signOf trim).toList.length = (signText trim).length := by
  cases trim <;> rfl

theorem tagBegin?_mark (kind : TokenKind) (mark : Text) (trim : Bool) (t : Text) :
    tagBegin? kind mark (mark ++ (signText trim ++ ' ' :: t))
      = some ⟨kind, (mark ++ signText trim).length, signOf trim⟩ := by
  simp [tagBegin?, markLength?_append, sign?_signText, length_signText]

/-- A mark that opens in front of another mark is no longer than that one. -/
theorem length_le_of_opens {m mark t : Text} {trim : Bool} (hplain : ¬ HidesMark m mark)
    (h : m <+: mark ++ (signText trim ++ ' ' :: t)) : m <+: mark := by
  rcases List.prefix_or_prefix_of_prefix h (List.prefix_append mark _) with hm | hm
  · exact hm
  · obtain ⟨w, rfl⟩ := hm
    rw [List.prefix_append_right_inj] at h
    cases w with
    | nil => exact ⟨[], by simp⟩
    | cons s w =>
      refine absurd ⟨s, ?_, ⟨w, by simp⟩⟩ hplain
      cases trim with
      | true => exact .inr (List.cons_prefix_cons.mp h).1
      | false => exact .inl (List.cons_prefix_cons.mp h).1

/-- The opening of a tag mark, where line statements may begin if `before` admits it. -/
def tagOpening? (before : Option Char) (t : Text) (a : TokenKind × Text) : Option Opening :=
  match a.1 with
  | .lineBegin => if before.all (· = '\n') then lineBegin? a.2 t else none
  | kind => tagBegin? kind a.2 t

theorem opening?_eq (env : Environment) (before : Option Char) (t : Text) :
    opening? env before t = (rawBegin? env t <|> (tagMarks env).findSome? (tagOpening? before t)) :=
  rfl

theorem isPrefix_of_tagBegin? {kind : TokenKind} {m t : Text} (h : tagBegin? kind m t ≠ none) :
    m <+: t := by
  cases hm : markLength? m t with
  | none => simp [tagBegin?, hm] at h
  | some n => exact (markLength?_eq_some hm).1

/-- A mark opens a tag only where it stands, unless it begins with a blank. -/
theorem isPrefix_of_tagOpening? {before : Option Char} {a : TokenKind × Text} {c : Char} {t : Text}
    (hc : c ≠ ' ' ∧ c ≠ '\t' ∧ c ≠ '\x0b') (h : tagOpening? before (c :: t) a ≠ none) :
    a.2 <+: c :: t := by
  obtain ⟨kind, m⟩ := a
  have hrun : (c :: t).takeWhile (fun c => c = ' ' || c = '\t' || c = '\x0b') = [] := by
    simp [hc]
  have hline : lineBegin? m (c :: t) ≠ none → m <+: c :: t := by
    intro hline
    have hbegin : tagBegin? .lineBegin m (c :: t) ≠ none := fun hnone =>
      hline (by simp [lineBegin?, hrun, latest?, hnone])
    exact isPrefix_of_tagBegin? hbegin
  cases kind with
  | lineBegin =>
    simp only [tagOpening?] at h
    split at h
    · exact hline h
    · exact absurd rfl h
  | _ => exact isPrefix_of_tagBegin? h

theorem mem_tagMarks (env : Environment) (kind : TagKind) :
    (kind.startToken, kind.startMark env.delimiters) ∈ tagMarks env := by
  rw [tagMarks, (sortOn_perm _ _).mem_iff]
  cases kind <;> simp [TagKind.startToken, TagKind.startMark]

/-- Where no mark stands nothing opens, unless blanks lead to the mark of a line statement. -/
theorem opening?_eq_none {env : Environment} {before : Option Char} {c : Char} {t : Text}
    (hblank : (c ≠ ' ' ∧ c ≠ '\t' ∧ c ≠ '\x0b') ∨ env.lineMark = none)
    (hno : ∀ a ∈ tagMarks env, ¬ a.2 <+: c :: t) : opening? env before (c :: t) = none := by
  have hraw : rawBegin? env (c :: t) = none := by
    cases hlen : markLength? env.delimiters.blockStart (c :: t) with
    | none => simp [rawBegin?, wordBlock?, hlen]
    | some n => exact absurd (markLength?_eq_some hlen).1 (hno _ (mem_tagMarks env .block))
  have htags : (tagMarks env).findSome? (tagOpening? before (c :: t)) = none := by
    refine List.findSome?_eq_none_iff.mpr fun a ha => ?_
    by_contra hopens
    rcases hblank with hc | hline
    · exact hno a ha (isPrefix_of_tagOpening? hc hopens)
    · have hkind : a.1 ≠ .lineBegin := by
        rw [tagMarks, (sortOn_perm _ _).mem_iff, hline] at ha
        simp only [Option.map_none, Option.toList_none, List.append_nil, List.singleton_append,
          List.mem_cons, List.not_mem_nil, or_false] at ha
        rcases ha with rfl | rfl | rfl <;> exact nofun
      obtain ⟨kind, m⟩ := a
      cases kind with
      | lineBegin => exact hkind rfl
      | _ => exact hno _ ha (isPrefix_of_tagBegin? hopens)
  rw [opening?_eq, hraw, htags]
  rfl

/-- In the usual environment nothing opens but at a brace. -/
theorem opening?_of_ne_brace {c : Char} (hc : c ≠ '\x7b') (before : Option Char) (t : Text) :
    opening? {} before (c :: t) = none := by
  have hbrace : (tagMarks {}).all (fun a => a.2.head? = some '\x7b') = true := by decide +kernel
  refine opening?_eq_none (.inr rfl) fun a ha hpre => ?_
  have hhead : a.2.head? = some '\x7b' := by simpa using List.all_eq_true.mp hbrace a ha
  obtain ⟨mark, hmark⟩ := List.head?_eq_some_iff.mp hhead
  rw [hmark] at hpre
  exact hc (List.cons_prefix_cons.mp hpre).1.symm

section regular

variable {env : Environment} (henv : env.Regular) {before : Option Char}

include henv

theorem Environment.Regular.eq_of_mark_eq {a b : TokenKind × Text} (ha : a ∈ tagMarks env)
    (hb : b ∈ tagMarks env) (h : a.2 = b.2) : a = b := by
  have hall := List.Pairwise.forall_of_forall_of_flip (R := fun a b => a = b ∨ a.2 ≠ b.2)
    (fun _ _ => .inl rfl) (henv.distinct.imp .inr) (henv.distinct.imp fun h => .inr h.symm) ha hb
  exact hall.resolve_right fun hne => hne h

/-- An output is not the beginning of a raw block, whatever stands in it. -/
theorem rawBegin?_output (trim : Bool) (t : Text) :
    rawBegin? env (env.delimiters.variableStart ++ (signText trim ++ ' ' :: t)) = none := by
  cases hlen : markLength? env.delimiters.blockStart
      (env.delimiters.variableStart ++ (signText trim ++ ' ' :: t)) with
  | none => simp [rawBegin?, wordBlock?, hlen]
  | some n =>
    obtain ⟨hpre, rfl⟩ := markLength?_eq_some hlen
    obtain ⟨w, hw⟩ := length_le_of_opens
      (henv.plain _ (mem_tagMarks env .block) .output) hpre
    cases w with
    | nil =>
      have heq : (TagKind.startToken .block, TagKind.startMark env.delimiters .block)
          = (TagKind.startToken .output, TagKind.startMark env.delimiters .output) :=
        henv.eq_of_mark_eq (mem_tagMarks env .block) (mem_tagMarks env .output) (by simpa using hw)
      exact nomatch (Prod.ext_iff.mp heq).1
    | cons c w =>
      -- the rest of the mark stands where the word would begin
      obtain ⟨hminus, hplus, hr, hblank⟩ := henv.notRaw c w hw.symm
      have hword : markLength? ['r', 'a', 'w'] (c :: (w ++ (signText trim ++ ' ' :: t))) = none :=
        markLength?_of_head_ne fun h => hr h.symm
      have hw' : env.delimiters.variableStart = env.delimiters.blockStart ++ c :: w := hw.symm
      rw [hw', List.append_assoc, List.cons_append]
      simp [rawBegin?, wordBlock?, markLength?_append, sign?, hminus, hplus, blankRun, hblank,
        hword]

/-- A tag is not the beginning of a raw block. -/
theorem rawBegin?_eq_none (kind : TagKind) {trim : Bool} {d : Char} {t : Text}
    (hd : d ≠ 'r' ∧ isBlank d = false) :
    rawBegin? env (kind.startMark env.delimiters ++ (signText trim ++ ' ' :: d :: t)) = none := by
  have hblock : ∀ mark, mark = env.delimiters.blockStart →
      rawBegin? env (mark ++ (signText trim ++ ' ' :: d :: t)) = none := by
    rintro _ rfl
    have hblank : blankRun (' ' :: d :: t) = 1 := by
      simp [blankRun, show isBlank ' ' = true by decide, hd.2]
    have hword : markLength? ['r', 'a', 'w'] (d :: t) = none :=
      markLength?_of_head_ne fun h => hd.1 h.symm
    have hdrop : (signText trim ++ ' ' :: d :: t).drop (signText trim).length = ' ' :: d :: t :=
      List.drop_left
    simp [rawBegin?, wordBlock?, markLength?_append, sign?_signText, length_signText,
      ← List.drop_drop, hdrop, hblank, hword]
  cases kind with
  | block => exact hblock _ rfl
  | line => exact hblock _ rfl
  | output => exact rawBegin?_output henv trim (d :: t)

/-- A mark with a blank or a minus behind it opens its own tag, unless a raw block begins. -/
theorem opening?_of_rawBegin? (kind : TagKind) {trim : Bool} {t : Text}
    (hraw : rawBegin? env (kind.startMark env.delimiters ++ (signText trim ++ ' ' :: t)) = none) :
    opening? env before (kind.startMark env.delimiters ++ (signText trim ++ ' ' :: t))
      = some ⟨kind.startToken, (kind.startMark env.delimiters ++ signText trim).length,
          signOf trim⟩ := by
  have hmem := mem_tagMarks env kind
  obtain ⟨c, rest, hmark, hc⟩ := henv.starts _ hmem
  have hmark' : kind.startMark env.delimiters = c :: rest := hmark
  have hself : tagOpening? before
      (kind.startMark env.delimiters ++ (signText trim ++ ' ' :: t))
      (kind.startToken, kind.startMark env.delimiters)
      = some ⟨kind.startToken, (kind.startMark env.delimiters ++ signText trim).length,
          signOf trim⟩ := by
    cases kind <;> exact tagBegin?_mark _ _ trim t
  have hother : ∀ a ∈ tagMarks env, tagOpening? before
      (kind.startMark env.delimiters ++ (signText trim ++ ' ' :: t)) a ≠ none →
      a = (kind.startToken, kind.startMark env.delimiters) ∨
        -((kind.startMark env.delimiters).length : Int) < -(a.2.length : Int) := by
    intro a ha hopens
    have hnot : c ≠ ' ' ∧ c ≠ '\t' ∧ c ≠ '\x0b' := by
      refine ⟨?_, ?_, ?_⟩ <;> rintro rfl <;> exact absurd hc (by decide)
    have hpre : a.2 <+: kind.startMark env.delimiters := by
      rw [hmark', List.cons_append] at hopens
      have hprefix := isPrefix_of_tagOpening? hnot hopens
      rw [← List.cons_append, ← hmark'] at hprefix
      exact length_le_of_opens (henv.plain a ha kind) hprefix
    -- the longest of the marks that open here is the whole mark
    by_cases hlen : a.2.length = (kind.startMark env.delimiters).length
    · exact .inl (henv.eq_of_mark_eq ha hmem (hpre.eq_of_length hlen))
    · have := hpre.length_le
      omega
  rw [opening?_eq, hraw]
  exact findSome?_of_sorted (sortOn_sorted _ _) hmem hself hother

/-- A mark in front of a word that does not make a raw block opens its own tag. -/
theorem opening?_mark (kind : TagKind) {trim : Bool} {d : Char} {t : Text}
    (hd : d ≠ 'r' ∧ isBlank d = false) :
    opening? env before (kind.startMark env.delimiters ++ (signText trim ++ ' ' :: d :: t))
      = some ⟨kind.startToken, (kind.startMark env.delimiters ++ signText trim).length,
          signOf trim⟩ :=
  opening?_of_rawBegin? henv kind (rawBegin?_eq_none henv kind hd)

/-- No mark begins with a line feed. -/
theorem opening?_lineFeed (t : Text) : opening? env before ('\n' :: t) = none := by
  refine opening?_eq_none (.inl (by decide)) fun a ha hpre => ?_
  obtain ⟨c, rest, hmark, hc⟩ := henv.starts a ha
  rw [hmark] at hpre
  rw [(List.cons_prefix_cons.mp hpre).1] at hc
  exact absurd hc (by decide)

end regular

/-! ## 3. Ends of tags -/

theorem plainEndLength?_mark {c : Char} (hc : c ≠ '-') (mark t : Text) :
    plainEndLength? (c :: mark) (c :: mark ++ t) = some (c :: mark).length := by
  have hlen := markLength?_append (c :: mark) t
  rw [List.cons_append] at hlen ⊢
  rw [plainEndLength?.eq_def]
  split
  · rename_i h
    exact absurd (List.cons.inj h).1 hc
  · exact hlen

/-- No end mark stands at another character, with a minus before it or not. -/
theorem plainEndLength?_eq_none {m c : Char} {mark t : Text} (hne : m ≠ c)
    (hminus : c = '-' → ∃ d u, t = d :: u ∧ m ≠ d) :
    plainEndLength? (m :: mark) (c :: t) = none := by
  rw [plainEndLength?.eq_def]
  split
  · rename_i h
    obtain ⟨rfl, rfl⟩ := List.cons.inj h
    obtain ⟨d, u, rfl, hd⟩ := hminus rfl
    rw [markLength?_of_head_ne hd]
    exact markLength?_of_head_ne hne
  · exact markLength?_of_head_ne hne

section ends

variable {env : Environment} (henv : env.Regular)

include henv

/-- An end mark ends its tag. -/
theorem tagEnd?_mark {kind : TagKind} (hkind : kind ≠ .line) (t : Text) :
    tagEnd? env kind (kind.endMark env.delimiters ++ t)
      = some (kind.endToken, (kind.endMark env.delimiters).length) := by
  obtain ⟨c, mark, hmark, hlex, _, hplus⟩ := henv.ends kind
  have hminus : c ≠ '-' := by
    rintro rfl
    exact absurd hlex (by decide)
  have hplain := plainEndLength?_mark hminus mark t
  cases kind with
  | line => exact absurd rfl hkind
  | output =>
    rw [← hmark] at hplain
    change (plainEndLength? _ _).map _ = _
    rw [show env.delimiters.variableEnd = TagKind.endMark env.delimiters .output from rfl, hplain]
    rfl
  | block =>
    have hsigned : signedEndLength? (c :: mark) (c :: mark ++ t) = some (c :: mark).length := by
      rw [List.cons_append] at hplain ⊢
      rw [signedEndLength?.eq_def]
      split
      · rename_i h
        exact absurd (List.cons.inj h).1 hplus
      · exact hplain
    rw [← hmark] at hsigned
    change (signedEndLength? _ _).map _ = _
    rw [show env.delimiters.blockEnd = TagKind.endMark env.delimiters .block from rfl, hsigned]
    rfl

/-- What begins like a lexeme ends no tag, and neither does a sign in front of it. -/
theorem tagEnd?_eq_none {kind : TagKind} (hkind : kind ≠ .line) {c : Char} {t : Text}
    (hc : beginsLexeme c = true ∨ isBlank c = true)
    (hminus : c = '-' → ∃ d u, t = d :: u ∧ beginsLexeme d = true) :
    tagEnd? env kind (c :: t) = none := by
  obtain ⟨m, mark, hmark, hlex, hblank, hplus⟩ := henv.ends kind
  have hne : ∀ d, beginsLexeme d = true ∨ isBlank d = true → m ≠ d := by
    rintro d (hd | hd) rfl
    · rw [hlex] at hd
      exact nomatch hd
    · rw [hblank] at hd
      exact nomatch hd
  have hplain : plainEndLength? (m :: mark) (c :: t) = none := by
    refine plainEndLength?_eq_none (hne c hc) fun h => ?_
    obtain ⟨d, u, rfl, hd⟩ := hminus h
    exact ⟨d, u, rfl, hne d (.inl hd)⟩
  have hsigned : signedEndLength? (m :: mark) (c :: t) = none := by
    rw [signedEndLength?.eq_def]
    split
    · rename_i h
      obtain ⟨rfl, rfl⟩ := List.cons.inj h
      exact absurd hc (by decide)
    · exact hplain
  cases kind with
  | line => exact absurd rfl hkind
  | output =>
    change (plainEndLength? env.delimiters.variableEnd _).map _ = none
    rw [show env.delimiters.variableEnd = m :: mark from hmark, hplain]
    rfl
  | block =>
    change (signedEndLength? env.delimiters.blockEnd _).map _ = none
    rw [show env.delimiters.blockEnd = m :: mark from hmark, hsigned]
    rfl

end ends

end ViewContract.Template
