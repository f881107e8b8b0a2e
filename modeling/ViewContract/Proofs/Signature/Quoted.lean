/-
ViewContract.Proofs.Signature.Quoted — quoted texts in a parameter list.

A text is quoted for the template language, and a parameter list can read it, too: every
escape that quoting uses means the same here. As for templates, each character is one block
of the quoted text (`unescapeDoubleFrom_char`), and the round trip is a fold over the blocks:

  §1 the round trip (`unquote_quoted`).
  §2 a quoted text is one string in front of anything (`stringLength?_interior`).

The escape of a control character has two digits, which is the most that are read, so a digit
that follows in the text is not taken for a third.
-/
import ViewContract.Proofs.Template.Quoted
import ViewContract.Proofs.Text.Interior
import ViewContract.Signature.Quoted
import ViewContract.Signature.Token
import Mathlib.Data.List.TakeWhile

namespace ViewContract.Signature

open ViewContract.Text
open ViewContract.Template (Quotable quotable_inner not_mem_quoted)

/-! ## 1. The round trip -/

variable {position : Option Nat}

/-- The characters that an escape covers are passed over. -/
theorem unescapeDoubleFrom_covered (t rest : Text) :
    unescapeDoubleFrom position t.length (t ++ rest) = unescapeDoubleFrom position 0 rest := by
  induction t with
  | nil => rfl
  | cons c t ih => rw [List.length_cons, List.cons_append, unescapeDoubleFrom, ih]

/-- An escape that is read as one character. -/
theorem unescapeDoubleFrom_escape {t : Text} {c : Char} {rest : Text}
    (h : escape? (t ++ rest) = some (.char c t.length)) :
    unescapeDoubleFrom position 0 ('\\' :: t ++ rest)
      = (c :: ·) <$> unescapeDoubleFrom position 0 rest := by
  rw [List.cons_append, unescapeDoubleFrom, if_neg (by simp), h]
  simp only [unescapeDoubleFrom_covered]

theorem unescapeDoubleFrom_plain {c : Char} (hc : c ≠ '\\') (rest : Text) :
    unescapeDoubleFrom position 0 ([c] ++ rest)
      = (c :: ·) <$> unescapeDoubleFrom position 0 rest := by
  rw [List.singleton_append, unescapeDoubleFrom, if_pos hc]

theorem isHexDigit_of_mem_hexDigits {width n : Nat} {c : Char} (h : c ∈ hexDigits width n) :
    isHexDigit c = true := by
  obtain ⟨d, hd, rfl⟩ := exists_of_mem_hexDigits h
  rw [isHexDigit, (digitChar_spec hd).1]
  rfl

/-- Two digits of base sixteen are the escape of their character. -/
theorem escape?_hexByte {c : Char} (hc : c.toNat < 16 ^ 2) (rest : Text) :
    escape? (('x' :: hexDigits 2 c.toNat) ++ rest)
      = some (.char c ('x' :: hexDigits 2 c.toNat).length) := by
  have hlength : (hexDigits 2 c.toNat).length = 2 := length_hexDigits (by decide) hc
  have htake : (hexDigits 2 c.toNat ++ rest).take 2 = hexDigits 2 c.toNat := List.take_left' hlength
  have hall : (hexDigits 2 c.toNat).takeWhile isHexDigit = hexDigits 2 c.toNat :=
    List.takeWhile_eq_self_iff.mpr fun d hd => isHexDigit_of_mem_hexDigits hd
  have hne : (hexDigits 2 c.toNat).isEmpty = false := by
    rw [List.isEmpty_eq_false_iff, ← List.length_pos_iff]
    omega
  have hbyte : hexByte? (('x' :: hexDigits 2 c.toNat) ++ rest)
      = some (.char c ('x' :: hexDigits 2 c.toNat).length) := by
    simp [hexByte?, htake, hall, hne, ofDigits_hexDigits]
  rw [escape?, hbyte]
  rfl

/-- A character is written as it is, or as an escape that stands for it whatever follows. -/
theorem quotedChar_escape (c : Char) : quotedChar c = [c] ∧ c ≠ '\\' ∨
    ∃ t, quotedChar c = '\\' :: t ∧ ∀ rest, escape? (t ++ rest) = some (.char c t.length) := by
  unfold quotedChar
  by_cases hslash : c = '\\'
  · exact .inr ⟨['\\'], by rw [if_pos hslash], fun _ => by rw [hslash]; rfl⟩
  by_cases hquote : c = '"'
  · exact .inr ⟨['"'], by rw [if_neg hslash, if_pos hquote], fun _ => by rw [hquote]; rfl⟩
  by_cases hfeed : c = '\n'
  · exact .inr ⟨['n'], by rw [hfeed]; rfl, fun _ => by rw [hfeed]; rfl⟩
  by_cases hreturn : c = '\r'
  · exact .inr ⟨['r'], by rw [hreturn]; rfl, fun _ => by rw [hreturn]; rfl⟩
  by_cases htab : c = '\t'
  · exact .inr ⟨['t'], by rw [htab]; rfl, fun _ => by rw [htab]; rfl⟩
  rw [if_neg hslash, if_neg hquote, if_neg hfeed, if_neg hreturn, if_neg htab]
  by_cases hcontrol : c.toNat < 0x20 ∨ c.toNat = 0x7f
  · have hlt : c.toNat < 16 ^ 2 := by omega
    rw [if_pos (by simpa using hcontrol)]
    exact .inr ⟨_, rfl, escape?_hexByte hlt⟩
  · rw [if_neg (by simpa using hcontrol)]
    exact .inl ⟨rfl, hslash⟩

/-- Reading undoes the quoting of one character. -/
theorem unescapeDoubleFrom_char (c : Char) (rest : Text) :
    unescapeDoubleFrom position 0 (quotedChar c ++ rest)
      = (c :: ·) <$> unescapeDoubleFrom position 0 rest := by
  rcases quotedChar_escape c with ⟨hself, hslash⟩ | ⟨t, hescape, hread⟩
  · rw [hself]
    exact unescapeDoubleFrom_plain hslash rest
  · rw [hescape]
    exact unescapeDoubleFrom_escape (hread rest)

theorem unescapeDoubleFrom_quoted (t : Text) :
    unescapeDoubleFrom position 0 (t.flatMap quotedChar) = .ok t := by
  induction t with
  | nil => rfl
  | cons c t ih =>
    rw [List.flatMap_cons, unescapeDoubleFrom_char, ih]
    rfl

/-- A quoted text stands for the text. -/
theorem unquote_quoted (t : Text) : unquote position (quoted t) = .ok t := by
  have hinner : ((quoted t).drop 1).dropLast = t.flatMap quotedChar := by simp [quoted]
  rw [unquote, hinner]
  exact unescapeDoubleFrom_quoted t

/-! ## 2. One string -/

/-- The inside of a string token: a backslash takes any character but a line feed. -/
abbrev StringInterior (quote : Char) : Text → Prop :=
  Interior quote (fun _ => True) (· ≠ '\n')

/-- The string ends at the quote behind its inside. -/
theorem stringTail?_append {quote : Char} (hquote : IsQuote quote) {s : Text}
    (hs : StringInterior quote s) (rest : Text) :
    stringTail? quote (s ++ quote :: rest) = some (s.length + 1) := by
  induction hs with
  | nil => rw [List.nil_append, stringTail?.eq_4 _ _ _ hquote.ne_backslash, if_pos rfl]; rfl
  | char hc _ _ ih =>
    rw [List.cons_append, stringTail?.eq_4 _ _ _ hc.2, if_neg hc.1, ih]
    rfl
  | escape hc _ ih => simp [stringTail?, hc, ih]

theorem stringInterior_of_quotable {s : Text} (hs : Quotable s) (hfeed : '\n' ∉ s) :
    StringInterior '"' s := by
  induction hs with
  | nil => exact .nil
  | char hc _ ih => exact .char hc trivial (ih fun h => hfeed (List.mem_cons_of_mem _ h))
  | @escape c s _ ih =>
    refine .escape ?_ (ih fun h => hfeed (by simp [h]))
    rintro rfl
    exact hfeed (by simp)

theorem stringInterior_quoted (t : Text) : StringInterior '"' (t.flatMap quotedChar) :=
  stringInterior_of_quotable (quotable_inner t) fun h =>
    not_mem_quoted (.inl rfl) t (List.mem_append_left _ (List.mem_cons_of_mem _ h))

/-- The inside of a string between its quotes is one string in front of anything. -/
theorem stringLength?_interior {quote : Char} (hquote : IsQuote quote) {s : Text}
    (hs : StringInterior quote s) (rest : Text) :
    stringLength? (quote :: s ++ [quote] ++ rest) = some (quote :: s ++ [quote]).length := by
  have htail := stringTail?_append hquote hs rest
  rcases hquote with rfl | rfl <;> simp [stringLength?, htail]

end ViewContract.Signature
