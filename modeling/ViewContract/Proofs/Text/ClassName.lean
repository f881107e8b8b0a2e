/-
ViewContract.Proofs.Text.ClassName — class names and dotted paths.

A class name is read by a scan that takes one identifier after another, while a class path is
checked by cutting it at its dots. Both are the same identifiers with separators between them:

  §1 the tail of a name, `PathTail`: separators and identifiers in turn.
  §2 the scan takes such a text (`className_take`) and all of it, also in front of other text
     (`isClassName_iff`, `classNameLength?_append`).
  §3 the cutting: a dotted path is a class name without a backslash (`exists_of_isDottedPath`).
  §4 a class name with its backslashes made dots is a dotted path
     (`isDottedPath_normalizePath`).
-/
import ViewContract.Proofs.Text.Ascii
import ViewContract.TypeRef

namespace ViewContract.Text

/-! ## 1. Tails -/

/-- Separators and identifiers in turn. -/
inductive PathTail : Text → Prop where
  | nil : PathTail []
  | step {c : Char} {name rest : Text} (hc : c = '\\' ∨ c = '.') (hname : isIdentifier name = true)
      (hrest : PathTail rest) : PathTail (c :: (name ++ rest))

/-- An identifier and a tail, perhaps behind a backslash. -/
inductive ClassName : Text → Prop where
  | mk {lead name tail : Text} (hlead : lead = [] ∨ lead = ['\\'])
      (hname : isIdentifier name = true) (htail : PathTail tail) :
      ClassName (lead ++ (name ++ tail))

/-- A class name begins with a backslash or an identifier. -/
theorem ClassName.exists_head {t : Text} (h : ClassName t) :
    ∃ c rest, t = c :: rest ∧ (c = '\\' ∨ isIdentifierStart c = true) := by
  obtain @⟨lead, name, tail, hlead, hname, _⟩ := h
  obtain ⟨c, rest, rfl, hstart, _⟩ := exists_of_isIdentifier hname
  rcases hlead with rfl | rfl
  · exact ⟨c, rest ++ tail, rfl, .inr hstart⟩
  · exact ⟨'\\', c :: rest ++ tail, rfl, .inl rfl⟩

theorem PathTail.char {t : Text} (h : PathTail t) :
    ∀ c ∈ t, isIdentifierPart c = true ∨ c = '\\' ∨ c = '.' := by
  induction h with
  | nil => exact fun c hc => absurd hc List.not_mem_nil
  | @step d name rest hd hname hrest ih =>
    obtain ⟨_, _, _, _, hparts⟩ := exists_of_isIdentifier hname
    intro c hc
    rcases List.mem_cons.mp hc with rfl | hc
    · exact .inr hd
    · rcases List.mem_append.mp hc with hc | hc
      · exact .inl (hparts c hc)
      · exact ih c hc

/-- The characters of a class name. -/
theorem ClassName.char {t : Text} (h : ClassName t) :
    ∀ c ∈ t, isIdentifierPart c = true ∨ c = '\\' ∨ c = '.' := by
  obtain @⟨lead, name, tail, hlead, hname, htail⟩ := h
  obtain ⟨_, _, _, _, hparts⟩ := exists_of_isIdentifier hname
  intro c hc
  rcases List.mem_append.mp hc with hc | hc
  · rcases hlead with rfl | rfl
    · exact absurd hc List.not_mem_nil
    · exact .inr (.inl (List.mem_singleton.mp hc))
  · rcases List.mem_append.mp hc with hc | hc
    · exact .inl (hparts c hc)
    · exact htail.char c hc

/-- What ends a class name: no character that the name could go on with. -/
def EndsPath (t : Text) : Prop :=
  ∀ c, t.head? = some c → isIdentifierPart c = false ∧ c ≠ '\\' ∧ c ≠ '.'

theorem EndsPath.head_any {t : Text} (h : EndsPath t) : t.head?.any isIdentifierPart = false := by
  cases t with
  | nil => rfl
  | cons c t => simpa using (h c rfl).1

theorem PathTail.head_any {tail rest : Text} (h : PathTail tail) (hrest : EndsPath rest) :
    (tail ++ rest).head?.any isIdentifierPart = false := by
  cases h with
  | nil => exact hrest.head_any
  | step hc _ _ => rcases hc with rfl | rfl <;> simp <;> decide

theorem leadingIdentifier?_append {name rest : Text} (hname : isIdentifier name = true)
    (hrest : rest.head?.any isIdentifierPart = false) :
    leadingIdentifier? (name ++ rest) = some name := by
  obtain ⟨c, others, rfl, hstart, hparts⟩ := exists_of_isIdentifier hname
  have hrun := takeWhile_append_of_head
    (fun d hd => hparts d (List.mem_cons_of_mem c hd)) hrest
  rw [List.cons_append, leadingIdentifier?, if_pos hstart, hrun]

/-! ## 2. The scan -/

theorem pathTailLength_append {tail : Text} (htail : PathTail tail) {rest : Text}
    (hrest : EndsPath rest) {fuel : Nat} (hfuel : tail.length ≤ fuel) :
    pathTailLength fuel (tail ++ rest) = tail.length := by
  induction htail generalizing fuel with
  | nil =>
    cases fuel with
    | zero => rfl
    | succ fuel =>
      cases rest with
      | nil => rfl
      | cons c rest =>
        obtain ⟨-, hslash, hdot⟩ := hrest c rfl
        simp [pathTailLength, hslash, hdot]
  | @step c name tail hc hname htail ih =>
    have hlength : (c :: (name ++ tail)).length = 1 + name.length + tail.length := by
      simp only [List.length_cons, List.length_append]
      omega
    rw [hlength] at hfuel
    cases fuel with
    | zero => omega
    | succ fuel =>
      have hread := leadingIdentifier?_append hname (htail.head_any hrest)
      have hcut : c :: (name ++ tail) ++ rest = c :: (name ++ (tail ++ rest)) := by simp
      have hlater : pathTailLength fuel (tail ++ rest) = tail.length := ih (by omega)
      rw [hcut, pathTailLength, if_pos (by simpa using hc), hread]
      simp only [List.drop_left, hlater, hlength]

/-- What the scan takes of any text is a tail. -/
theorem pathTail_take (fuel : Nat) (t : Text) : PathTail (t.take (pathTailLength fuel t)) := by
  induction fuel generalizing t with
  | zero => exact .nil
  | succ fuel ih =>
    cases t with
    | nil => exact .nil
    | cons c rest =>
      rw [pathTailLength]
      split
      · rename_i hc
        split
        · exact .nil
        · rename_i name hname
          obtain ⟨hidentifier, after, rfl⟩ := isIdentifier_of_leadingIdentifier? hname
          rw [List.drop_left, Nat.add_assoc, Nat.add_comm 1, List.take_succ_cons,
            List.take_length_add_append]
          exact .step (by simpa using hc) hidentifier (ih after)
      · exact .nil

/-- Behind a backslash a class name is read as without it. -/
theorem classNameLength?_backslash (body : Text) : classNameLength? ('\\' :: body) =
    (leadingIdentifier? body).map fun name =>
      1 + name.length + pathTailLength body.length (body.drop name.length) :=
  rfl

theorem classNameLength?_of_head_ne {t : Text} (h : t.head? ≠ some '\\') : classNameLength? t =
    (leadingIdentifier? t).map fun name =>
      name.length + pathTailLength t.length (t.drop name.length) := by
  cases t with
  | nil => rfl
  | cons c rest =>
    have hc : c ≠ '\\' := fun hc => h (by rw [hc]; rfl)
    simp [classNameLength?, hc]

/-- A class name in front of a text that does not go on with it. -/
theorem classNameLength?_append {t rest : Text} (h : ClassName t) (hrest : EndsPath rest) :
    classNameLength? (t ++ rest) = some t.length := by
  obtain @⟨lead, name, tail, hlead, hname, htail⟩ := h
  have hread : leadingIdentifier? (name ++ (tail ++ rest)) = some name :=
    leadingIdentifier?_append hname (htail.head_any hrest)
  have htaken : pathTailLength (name ++ (tail ++ rest)).length (tail ++ rest) = tail.length :=
    pathTailLength_append htail hrest (by simp; omega)
  have hcut : lead ++ (name ++ tail) ++ rest = lead ++ (name ++ (tail ++ rest)) := by simp
  rw [hcut]
  rcases hlead with rfl | rfl
  · obtain ⟨c, others, hcons, hstart, _⟩ := exists_of_isIdentifier hname
    have hhead : (name ++ (tail ++ rest)).head? ≠ some '\\' := by
      rw [hcons, List.cons_append, List.head?_cons]
      rintro h
      obtain rfl := Option.some.inj h
      exact absurd hstart (by decide)
    rw [List.nil_append, classNameLength?_of_head_ne hhead, hread]
    simp only [Option.map_some, List.drop_left, htaken]
    simp
  · rw [List.singleton_append, classNameLength?_backslash, hread]
    simp only [Option.map_some, List.drop_left, htaken]
    simp
    omega

/-- An identifier that is read, and the tail that is taken after it. -/
theorem exists_of_leadingIdentifier?_map {t : Text} {lead length : Nat}
    (h : (leadingIdentifier? t).map (fun name =>
      lead + name.length + pathTailLength t.length (t.drop name.length)) = some (lead + length)) :
    ∃ name tail, t.take length = name ++ tail ∧ isIdentifier name = true ∧ PathTail tail := by
  obtain ⟨name, hname, hlength⟩ := Option.map_eq_some_iff.mp h
  obtain ⟨hidentifier, rest, rfl⟩ := isIdentifier_of_leadingIdentifier? hname
  rw [List.drop_left, Nat.add_assoc, Nat.add_left_cancel_iff] at hlength
  subst hlength
  exact ⟨name, _, List.take_length_add_append _, hidentifier, pathTail_take _ rest⟩

/-- What the scan takes is a class name. -/
theorem className_take {t : Text} {length : Nat} (h : classNameLength? t = some length) :
    ClassName (t.take length) := by
  by_cases hhead : t.head? = some '\\'
  · obtain ⟨body, rfl⟩ := List.head?_eq_some_iff.mp hhead
    rw [classNameLength?_backslash] at h
    obtain ⟨count, rfl⟩ : ∃ count, length = 1 + count := by
      obtain ⟨name, _, rfl⟩ := Option.map_eq_some_iff.mp h
      exact ⟨_, Nat.add_assoc 1 _ _⟩
    obtain ⟨name, tail, htake, hname, htail⟩ := exists_of_leadingIdentifier?_map h
    rw [Nat.add_comm, List.take_succ_cons, htake]
    exact (.mk (.inr rfl) hname htail : ClassName (['\\'] ++ (name ++ tail)))
  · rw [classNameLength?_of_head_ne hhead] at h
    obtain ⟨name, tail, htake, hname, htail⟩ :=
      @exists_of_leadingIdentifier?_map t 0 length (by simpa using h)
    rw [htake]
    exact (.mk (.inl rfl) hname htail : ClassName ([] ++ (name ++ tail)))

/-- The scan takes the whole of a text exactly if it is a class name. -/
theorem isClassName_iff {t : Text} : isClassName t = true ↔ ClassName t := by
  constructor
  · intro h
    rw [isClassName, beq_iff_eq] at h
    rw [← List.take_length (l := t)]
    exact className_take h
  · intro hname
    have h : classNameLength? (t ++ []) = some t.length := classNameLength?_append hname nofun
    rw [List.append_nil] at h
    rw [isClassName, h, beq_iff_eq]

/-! ## 3. Dotted paths -/

theorem splitOn_eq (sep : Char) (t : Text) : splitOn sep t = List.splitOn sep t := by
  induction t with
  | nil => rfl
  | cons c t ih =>
    rw [splitOn, ih, List.splitOn, List.splitOn, List.splitOnP_cons_eq_if_modifyHead]
    cases hpieces : List.splitOnP (· == sep) t with
    | nil => exact absurd hpieces (List.splitOnP_ne_nil _ _)
    | cons piece pieces => by_cases hc : c = sep <;> simp [hc]

theorem isDottedPath_append (w t : Text) :
    isDottedPath (w ++ '.' :: t) = (isDottedPath w && isDottedPath t) := by
  simp only [isDottedPath, splitOn_eq, List.splitOn_append_cons_self, List.all_append]

theorem isDottedPath_of_not_mem {t : Text} (h : '.' ∉ t) : isDottedPath t = isIdentifier t := by
  simp [isDottedPath, splitOn_eq, List.splitOn_eq_singleton h]

theorem not_mem_of_isIdentifier {t : Text} (ht : isIdentifier t = true) {d : Char}
    (hd : isIdentifierPart d = false) : d ∉ t := by
  obtain ⟨_, _, _, _, hparts⟩ := exists_of_isIdentifier ht
  exact fun hmem => ne_of_isIdentifierPart (hparts d hmem) hd rfl

/-- A dotted path begins with an identifier, goes on with a tail, and has no backslash. -/
theorem exists_of_isDottedPath {t : Text} (h : isDottedPath t = true) :
    ∃ name tail, t = name ++ tail ∧ isIdentifier name = true ∧ PathTail tail ∧ '\\' ∉ t := by
  induction hn : t.length using Nat.strongRecOn generalizing t with
  | ind n ih =>
    by_cases hdot : '.' ∈ t
    · obtain ⟨w, rest, rfl, hw⟩ := List.eq_append_cons_of_mem hdot
      rw [isDottedPath_append, Bool.and_eq_true, isDottedPath_of_not_mem hw] at h
      obtain ⟨hname, hrest⟩ := h
      have hlt : rest.length < n := by
        rw [← hn]
        simp
        omega
      obtain ⟨name, tail, rfl, hname', htail, hslash⟩ := ih _ hlt hrest rfl
      refine ⟨w, '.' :: (name ++ tail), rfl, hname, .step (.inr rfl) hname' htail, ?_⟩
      simp only [List.mem_append, List.mem_cons, not_or] at hslash ⊢
      exact ⟨not_mem_of_isIdentifier hname (by decide), by decide, hslash⟩
    · rw [isDottedPath_of_not_mem hdot] at h
      exact ⟨t, [], by simp, h, .nil, not_mem_of_isIdentifier h (by decide)⟩

theorem className_of_isDottedPath {t : Text} (h : isDottedPath t = true) : ClassName t := by
  obtain ⟨name, tail, rfl, hname, htail, _⟩ := exists_of_isDottedPath h
  exact (.mk (.inl rfl) hname htail : ClassName ([] ++ (name ++ tail)))

/-! ## 4. Normal form -/

/-- A separator as it stands in a dotted path. -/
theorem isDottedPath_map {tail : Text} (htail : PathTail tail) {name : Text}
    (hname : isIdentifier name = true) :
    isDottedPath ((name ++ tail).map fun c => if c = '\\' then '.' else c) = true := by
  have hself : ∀ {t : Text}, isIdentifier t = true →
      t.map (fun c => if c = '\\' then '.' else c) = t := by
    intro t ht
    refine (List.map_congr_left fun c hc => ?_).trans (List.map_id t)
    have : c ≠ '\\' := fun h => not_mem_of_isIdentifier ht (by decide) (h ▸ hc)
    simp [this]
  have hdotted : ∀ {t : Text}, isIdentifier t = true → isDottedPath t = true := by
    intro t ht
    rw [isDottedPath_of_not_mem (not_mem_of_isIdentifier ht (by decide)), ht]
  induction htail generalizing name with
  | nil => simpa [hself hname] using hdotted hname
  | @step c next rest hc hnext hrest ih =>
    have hcut : (name ++ c :: (next ++ rest)).map (fun c => if c = '\\' then '.' else c)
        = name ++ '.' :: (next ++ rest).map fun c => if c = '\\' then '.' else c := by
      rcases hc with rfl | rfl <;> simp [hself hname]
    rw [hcut, isDottedPath_append, hdotted hname, ih hnext]
    rfl

end ViewContract.Text

namespace ViewContract

open Text

/-- A class name in normal form is a dotted path. -/
theorem isDottedPath_normalizePath {t : Text} (h : ClassName t) :
    isDottedPath (normalizePath t) = true := by
  obtain @⟨lead, name, tail, hlead, hname, htail⟩ := h
  obtain ⟨c, others, rfl, hstart, _⟩ := exists_of_isIdentifier hname
  have hc : c ≠ '\\' := by
    rintro rfl
    exact absurd hstart (by decide)
  have hdrop : (lead ++ (c :: others ++ tail)).dropWhile (· = '\\') = c :: others ++ tail := by
    rcases hlead with rfl | rfl <;> simp [hc]
  rw [normalizePath, hdrop]
  exact isDottedPath_map htail hname

/-- A dotted path is in normal form. -/
theorem normalizePath_eq_self {t : Text} (h : isDottedPath t = true) : normalizePath t = t := by
  obtain ⟨_, _, _, _, _, hslash⟩ := exists_of_isDottedPath h
  have hne : ∀ c ∈ t, c ≠ '\\' := fun c hc h => hslash (h ▸ hc)
  have hdrop : t.dropWhile (· = '\\') = t := by
    cases t with
    | nil => rfl
    | cons c rest => simp [hne c List.mem_cons_self]
  rw [normalizePath, hdrop]
  refine (List.map_congr_left fun c hc => ?_).trans (List.map_id t)
  simp [hne c hc]

end ViewContract
