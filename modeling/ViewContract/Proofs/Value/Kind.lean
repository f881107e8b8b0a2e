/-
ViewContract.Proofs.Value.Kind — a value is named after the kind it is of.

A value is named by the first of some checks that it passes: null, a truth value, and then the kinds
in a fixed order; if it passes none, by its class. The order makes no difference. No class lies
below built-in classes of two kinds, and what lies below the truth values is of no kind. So a value
bears the name of a kind exactly if it is of that kind (`Ordinary.kindName_eq_iff`).

The classes of objects are those of an application, so two things are asked of them: a class is one
that can be defined at all (`Class.Coherent`), and it does not bear the name of a kind by chance
(`Class.isMisnamed`). Values that are no objects need neither.

  §1 kinds and their classes.
  §2 classes that can be defined: their instances are of one kind at most.
  §3 values and the names of their kinds.
-/
import ViewContract.Value.Kind

namespace ViewContract

/-! ## 1. Kinds -/

namespace Kind

variable {kind kind' : Kind}

theorem mem_all (kind : Kind) : kind ∈ all := by
  cases kind <;> decide

theorem ofName?_name (kind : Kind) : ofName? kind.name.toList = some kind := by
  cases kind <;> rfl

theorem eq_of_name_eq (h : kind.name.toList = kind'.name.toList) : kind = kind' := by
  have hread := congrArg ofName? h
  rw [ofName?_name, ofName?_name] at hread
  exact Option.some.inj hread

/-- No class is a class of two kinds. -/
theorem eq_of_mem_classes {c : Class} (h : c ∈ kind.classes) (h' : c ∈ kind'.classes) :
    kind = kind' := by
  have hapart : ∀ d ∈ kind.classes, ∀ e ∈ kind'.classes, d = e → kind = kind' := by
    cases kind <;> cases kind' <;> decide
  exact hapart c h c h' rfl

end Kind

/-! ## 2. Classes -/

namespace Class

/-- The built-in classes that hold data, each in a layout of its own. -/
def layouts : List Class :=
  Kind.all.flatMap Kind.classes

/-- What holds of every class that can be defined. A class has one layout, so it lies below one at
most of the classes with a layout of their own; and what lies below the truth values lies below the
integers with them. -/
structure Coherent (c : Class) : Prop where
  layout : ∀ d ∈ layouts, ∀ e ∈ layouts, c.isBelow d = true → c.isBelow e = true → d = e
  bool : c.isBelow .bool = true → c.isBelow (.builtin "int") = true

instance (c : Class) : Decidable c.Coherent :=
  decidable_of_iff (_ ∧ _) ⟨fun h => ⟨h.1, h.2⟩, fun h => ⟨h.layout, h.bool⟩⟩

/-- Whether a class bears the name of a kind though its instances are of none. -/
def isMisnamed (c : Class) : Bool :=
  (Kind.ofName? c.name).isSome && !Kind.all.any c.isOfKind

variable {c : Class} {kind kind' : Kind}

theorem mem_layouts (h : c ∈ kind.classes) : c ∈ layouts :=
  List.mem_flatMap.mpr ⟨kind, kind.mem_all, h⟩

theorem isOfKind_iff : c.isOfKind kind = true ↔
    (∃ d ∈ kind.classes, c.isBelow d = true) ∧ (kind = .int → c.isBelow .bool = false) := by
  by_cases hint : kind = .int <;> simp [isOfKind, hint]

theorem Coherent.isOfKind_unique (hc : c.Coherent) (h : c.isOfKind kind = true)
    (h' : c.isOfKind kind' = true) : kind = kind' := by
  obtain ⟨⟨d, hd, hbelow⟩, _⟩ := isOfKind_iff.mp h
  obtain ⟨⟨e, he, hbelow'⟩, _⟩ := isOfKind_iff.mp h'
  obtain rfl := hc.layout d (mem_layouts hd) e (mem_layouts he) hbelow hbelow'
  exact Kind.eq_of_mem_classes hd he

/-- Truth values are of no kind: they have the layout of integers, and the check for integers leaves
them out. -/
theorem Coherent.isOfKind_of_bool (hc : c.Coherent) (hbool : c.isBelow .bool = true) (kind : Kind) :
    c.isOfKind kind = false := by
  rw [Bool.eq_false_iff]
  intro h
  obtain ⟨⟨d, hd, hbelow⟩, hnot⟩ := isOfKind_iff.mp h
  have hint : Class.builtin "int" ∈ Kind.int.classes := List.mem_singleton_self _
  obtain rfl := hc.layout d (mem_layouts hd) _ (mem_layouts hint) hbelow (hc.bool hbool)
  exact Bool.false_ne_true ((hnot (Kind.eq_of_mem_classes hd hint)).symm.trans hbool)

/-- A class that is not misnamed and whose instances are of no kind has a name of its own. -/
theorem name_ne_of_isMisnamed (hname : c.isMisnamed = false)
    (h : ∀ kind, c.isOfKind kind = false) (kind : Kind) : c.name ≠ kind.name.toList := by
  intro heq
  have hany : Kind.all.any c.isOfKind = false := List.any_eq_false.mpr fun k _ => by simp [h k]
  rw [isMisnamed, heq, Kind.ofName?_name, hany] at hname
  exact nomatch hname

end Class

/-! ## 3. Values -/

namespace Value

/-- Any value but an object of a class that cannot be defined or is misnamed. -/
def Ordinary : Value → Prop
  | .object c => c.Coherent ∧ c.isMisnamed = false
  | _ => True

variable {v : Value}

theorem Ordinary.ofClass (hv : v.Ordinary) : v.ofClass.Coherent ∧ v.ofClass.isMisnamed = false := by
  cases v with
  | object c => exact hv
  | _ => dsimp only [Value.ofClass]; decide

theorem Ordinary.isOfKind_unique (hv : v.Ordinary) {kind kind' : Kind}
    (h : v.isOfKind kind = true) (h' : v.isOfKind kind' = true) : kind = kind' :=
  hv.ofClass.1.isOfKind_unique h h'

theorem isOfKind_null (kind : Kind) : Value.null.isOfKind kind = false := by
  cases kind <;> decide

theorem isOfKind_bool (b : Bool) (kind : Kind) : (Value.bool b).isOfKind kind = false := by
  have hc : Class.bool.Coherent := by decide
  exact hc.isOfKind_of_bool (by decide) kind

theorem kindName_of_ne_null (h : v ≠ .null) :
    v.kindName = if v.ofClass.isBelow .bool then "bool".toList
      else match Kind.all.find? v.isOfKind with
        | some kind => kind.name.toList
        | none => v.ofClass.name := by
  cases v with
  | null => exact absurd rfl h
  | _ => rfl

/-- A value bears the name of a kind exactly if it is of that kind. -/
theorem Ordinary.kindName_eq_iff (hv : v.Ordinary) (kind : Kind) :
    v.kindName = kind.name.toList ↔ v.isOfKind kind = true := by
  obtain ⟨hc, hname⟩ := hv.ofClass
  by_cases hnull : v = .null
  · subst hnull
    rw [isOfKind_null]
    cases kind <;> decide
  · rw [kindName_of_ne_null hnull]
    split
    · rename_i hbool
      have hnone : v.isOfKind kind = false := hc.isOfKind_of_bool hbool kind
      rw [hnone]
      cases kind <;> decide
    · cases hfind : Kind.all.find? v.isOfKind with
      | some found =>
        have hfound : v.isOfKind found = true := List.find?_some hfind
        constructor
        · intro h
          exact Kind.eq_of_name_eq h ▸ hfound
        · intro h
          rw [hc.isOfKind_unique hfound h]
      | none =>
        have hnone : ∀ kind, v.isOfKind kind = false := fun kind =>
          Bool.eq_false_iff.mpr (List.find?_eq_none.mp hfind kind kind.mem_all)
        rw [hnone kind]
        exact iff_of_false (Class.name_ne_of_isMisnamed hname hnone kind) Bool.false_ne_true

/-- A class that is misnamed lends its objects the name of a kind that they are not of. -/
example : (Value.object ⟨"app.int".toList, []⟩).kindName = Kind.int.name.toList ∧
    (Value.object ⟨"app.int".toList, []⟩).isOfKind .int = false := by
  decide

end Value

end ViewContract
