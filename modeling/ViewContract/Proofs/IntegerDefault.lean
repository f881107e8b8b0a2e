/-
ViewContract.Proofs.IntegerDefault — integers in digits as defaults.

A default of an `int` is written in digits, perhaps with a sign and with underscores between the
digits. It is always read as a number, but the reader goes on to doubles where it finds no integer:
for a zero in front of a decimal that is not zero, and beyond the limit of digits. The doc comment
refuses these doubles for an `int`. The parameter list does not look at the type and keeps them
(`integer_defaults_read`).
-/
import ViewContract.Proofs.NumericDefault

namespace ViewContract

open Text

theorem inBody_optionalOfKind (kind : Kind) {name : Text} (hname : isIdentifier name = true)
    (hreserved : isReserved name = false) (l : Literal) :
    (optionalOfKind kind name l).inBody = .ok (optionalOfKind kind name l) := by
  have hbody := Signature.inBody_declaration (readable_numericParameter kind [] [] hname) hreserved
    (some l)
  rwa [declaration_numericParameter] at hbody

section defaults

variable {sign t name : Text} (hsign : Number.IsSign sign) (ht : Number.Grouped t)

include hsign ht

theorem read_signed_grouped :
    Number.Literal.read (sign ++ t) = .ok ((Number.groupedLiteral t).signed sign) :=
  Number.read_signed hsign ht.unsigned (Number.read_grouped ht)

/-- A parameter list takes a number for the default that it is, whatever the type. -/
theorem declarations_grouped (kind : Kind) (hname : isIdentifier name = true)
    (hreserved : isReserved name = false) :
    Signature.declarations (Signature.parameterText kind.name.toList name (some (sign ++ t)))
      = (fun l => [optionalOfKind kind name l]) <$>
        (Literal.ofValue (Signature.valueOfNumber ((Number.groupedLiteral t).signed sign))).mapError
          DefaultError.inBody := by
  obtain ⟨position, heq⟩ :=
    exists_declarations_eq kind hname hsign (Signature.numberToken_grouped ht)
  have hnumber : Signature.readNumber ⟨.number, t, position⟩ = .ok (Number.groupedLiteral t) := by
    rw [Signature.readNumber, Number.read_grouped ht]
    rfl
  rw [heq, hnumber]
  simp only [bind, Except.bind, inBody_optionalOfKind kind hname hreserved]
  cases (Literal.ofValue (Signature.valueOfNumber
    ((Number.groupedLiteral t).signed sign))).mapError DefaultError.inBody <;> rfl

/-- A doc comment takes only the integers for an `int`. -/
theorem ofText_grouped :
    Literal.ofText (sign ++ t) (some (.primitive .int)) =
      match (Number.groupedLiteral t).signed sign with
      | .int n => .ok (some (.int n))
      | .float _ => .error (.fault (.notOfKind (sign ++ t) Kind.int.name)) := by
  rw [Literal.ofText.eq_def, if_neg (Number.lower_signed_ne_null hsign ht.unsigned)]
  simp only [read_signed_grouped hsign ht]
  cases (Number.groupedLiteral t).signed sign <;> rfl

/-- **Integers in digits**: an optional sign and digits with single underscores between them are
always read as a number. The number is an integer exactly if the digits are octal in the old
spelling, or are within the limit of digits and begin with zero only if they are zero. Either
notation declares the integer for an `int`. Otherwise the number is the double nearest to the
decimal; the doc comment refuses it, and the parameter list declares it for an `int` all the same,
unless the decimal is beyond the doubles. -/
theorem integer_defaults_read (hname : isIdentifier name = true)
    (hreserved : isReserved name = false) :
    let number := (Number.groupedLiteral t).signed sign
    let list := Signature.declarations
      (Signature.parameterText Kind.int.name.toList name (some (sign ++ t)))
    let block := Literal.ofText (sign ++ t) (some (.primitive .int))
    Number.Literal.read (sign ++ t) = .ok number ∧
      ((∃ n, number = .int n) ↔ Number.OldOctal t ∨ Number.PlainDecimal t) ∧
      (∀ n, number = .int n →
        list = .ok [optionalOfKind .int name (.int n)] ∧ block = .ok (some (.int n))) ∧
      ∀ x, number = .float x →
        (x.isFinite = true → list = .ok [optionalOfKind .int name (.float x)]) ∧
        (x.isFinite = false → list = .error (.default (.notFinite x))) ∧
        block = .error (.fault (.notOfKind (sign ++ t) Kind.int.name)) := by
  intro number list block
  have hlist : list = _ := declarations_grouped hsign ht .int hname hreserved
  have hblock : block = _ := ofText_grouped hsign ht
  refine ⟨read_signed_grouped hsign ht, Number.exists_int_groupedLiteral sign t, ?_, ?_⟩
  · intro n hn
    rw [show (Number.groupedLiteral t).signed sign = .int n from hn] at hlist hblock
    exact ⟨hlist, hblock⟩
  · intro x hx
    rw [show (Number.groupedLiteral t).signed sign = .float x from hx] at hlist hblock
    refine ⟨fun hfinite => ?_, fun hfinite => ?_, hblock⟩
    · rw [hlist, Signature.valueOfNumber, Literal.ofValue, Literal.ofFiniteDouble, if_pos hfinite]
      rfl
    · rw [hlist, Signature.valueOfNumber, Literal.ofValue, Literal.ofFiniteDouble,
        if_neg (by simp [hfinite])]
      rfl

end defaults

/-- The double eight. -/
def eight : Number.Binary64 :=
  .finite false (2 ^ 52) (-49)

/-- A zero in front of a digit that is not octal. -/
theorem integer_defaults_read_of_zero_eight :
    Number.Literal.read ['0', '8'] = .ok (.float eight) ∧
      Signature.declarations (Signature.parameterText Kind.int.name.toList ['n'] (some ['0', '8']))
        = .ok [optionalOfKind .int ['n'] (.float eight)] ∧
      Literal.ofText ['0', '8'] (some (.primitive .int))
        = .error (.fault (.notOfKind ['0', '8'] Kind.int.name)) := by
  have hnumber : (Number.groupedLiteral ['0', '8']).signed [] = .float eight := by decide +kernel
  have hgrouped : Number.Grouped ['0', '8'] := .next rfl (.last rfl)
  obtain ⟨hread, _, _, hfloat⟩ := integer_defaults_read (.inl rfl) hgrouped
    (show isIdentifier ['n'] = true by decide) (by decide)
  obtain ⟨hlist, _, hblock⟩ := hfloat eight hnumber
  rw [hnumber] at hread
  exact ⟨hread, hlist rfl, hblock⟩

/-- Not every text of digits is read as an integer or refused. -/
theorem not_forall_digits_integer :
    ¬ ∀ sign t : Text, Number.IsSign sign → Number.Grouped t →
      (∃ n, Number.Literal.read (sign ++ t) = .ok (.int n)) ∨
        ∃ e, Number.Literal.read (sign ++ t) = .error e := by
  intro h
  have hread : Number.Literal.read ([] ++ ['0', '8']) = .ok (.float eight) := by decide +kernel
  rcases h [] ['0', '8'] (.inl rfl) (.next rfl (.last rfl)) with ⟨n, hn⟩ | ⟨e, he⟩
  · rw [hread] at hn
    cases hn
  · rw [hread] at he
    cases he

end ViewContract
