/-
ViewContract.Proofs.Text.Interior — texts between quotes.

Whatever quotes a text, a backslash takes the next character with it, and the next quote without
one ends the text. What else may stand between the quotes differs from reader to reader, so the
rules for it are parameters of `Interior`.
-/
import ViewContract.Text.Basic

namespace ViewContract.Text

/-- The inside of a quoted text: neither the quote nor a backslash, except that a backslash takes
the next character with it. `plain` says which characters may stand there on their own, and
`taken` which a backslash may take. -/
inductive Interior (quote : Char) (plain taken : Char → Prop) : Text → Prop where
  | nil : Interior quote plain taken []
  | char {c : Char} {t : Text} (hc : c ≠ quote ∧ c ≠ '\\') (hplain : plain c)
      (ht : Interior quote plain taken t) : Interior quote plain taken (c :: t)
  | escape {c : Char} {t : Text} (htaken : taken c) (ht : Interior quote plain taken t) :
      Interior quote plain taken ('\\' :: c :: t)

/-- Weaker rules on a text that has only some characters. -/
theorem Interior.mono {quote : Char} {plain plain' taken taken' : Char → Prop} {t : Text}
    (h : Interior quote plain taken t) (hplain : ∀ c ∈ t, plain c → plain' c)
    (htaken : ∀ c ∈ t, taken c → taken' c) : Interior quote plain' taken' t := by
  induction h with
  | nil => exact .nil
  | @char c t hc hp _ ih =>
    exact .char hc (hplain c List.mem_cons_self hp) (ih
      (fun d hd => hplain d (List.mem_cons_of_mem c hd))
      fun d hd => htaken d (List.mem_cons_of_mem c hd))
  | @escape c t hc _ ih =>
    exact .escape (htaken c (List.mem_cons_of_mem _ List.mem_cons_self) hc) (ih
      (fun d hd => hplain d (List.mem_cons_of_mem _ (List.mem_cons_of_mem c hd)))
      fun d hd => htaken d (List.mem_cons_of_mem _ (List.mem_cons_of_mem c hd)))

theorem Interior.append {quote : Char} {plain taken : Char → Prop} {s t : Text}
    (hs : Interior quote plain taken s) (ht : Interior quote plain taken t) :
    Interior quote plain taken (s ++ t) := by
  induction hs with
  | nil => exact ht
  | char hc hplain _ ih => exact .char hc hplain ih
  | escape htaken _ ih => exact .escape htaken ih

/-- A character that may stand neither on its own nor behind a backslash is not there. -/
theorem Interior.not_mem {quote c : Char} {plain taken : Char → Prop} {t : Text}
    (h : Interior quote plain taken t) (hplain : ¬ plain c) (htaken : ¬ taken c)
    (hslash : c ≠ '\\') : c ∉ t := by
  induction h with
  | nil => exact List.not_mem_nil
  | char _ hp _ ih => exact List.not_mem_cons_of_ne_of_not_mem (fun h => hplain (h ▸ hp)) ih
  | escape ht _ ih =>
    exact List.not_mem_cons_of_ne_of_not_mem hslash
      (List.not_mem_cons_of_ne_of_not_mem (fun h => htaken (h ▸ ht)) ih)

/-- The two quotes. -/
def IsQuote (c : Char) : Prop :=
  c = '\'' ∨ c = '"'

theorem IsQuote.ne_backslash {c : Char} (h : IsQuote c) : c ≠ '\\' := by
  rcases h with rfl | rfl <;> decide

theorem IsQuote.ne_feed {c : Char} (h : IsQuote c) : c ≠ '\n' := by
  rcases h with rfl | rfl <;> decide

end ViewContract.Text
