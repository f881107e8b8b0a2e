/-
ViewContract.Proofs.Docblock.Union — unions put together, and unions in parentheses.

A type expression is cut at the bars outside its brackets, and a piece in parentheses is cut
again. The cuts count brackets of all kinds alike, so they are safe exactly where the count comes
out even (`Balanced`): a bar behind a balanced expression is a cut, and the parentheses around one
hold it together.

  §1 what a union amounts to by its members.
  §2 the depth of brackets, and where a union is cut.
  §3 the members of one piece. How deep groups may be nested does not matter
     (`membersWithin_eq_members`).
  §4 the leaves of a union, which are its members once the groups are opened.
  §5 what a union amounts to by its leaves (`ofMembers_eq_leaves`).
  §6 the laws together (`members_union`).
-/
import ViewContract.Proofs.Annotation.Declared
import ViewContract.Proofs.Docblock.Type
import Mathlib.Algebra.BigOperators.Group.List.Basic

namespace ViewContract

open Text

/-! ## 1. Types among members -/

/-- The type of a member, if it has one. -/
def Member.type? : Member → Option TypeRef
  | .type t => some t
  | _ => none

/-- A union amounts to its last type, and to null if null is in it. -/
theorem Typing.ofMembers_eq (ms : List Member) :
    ofMembers ms
      = { type := (ms.filterMap Member.type?).getLast?, nullable := ms.contains .null } := by
  induction ms using List.reverseRecOn with
  | nil => rfl
  | append_singleton ms m ih =>
    rw [ofMembers] at ih
    rw [ofMembers, List.foldl_append, ih]
    cases m <;> simp [Member.type?]

namespace Docblock

/-! ## 2. Where a union is cut -/

/-- How deep in brackets a text ends that begins outside of them. -/
def depth (t : Text) : Int :=
  (t.map depthStep).sum

@[simp] theorem depth_nil : depth [] = 0 := rfl

@[simp] theorem depth_cons (c : Char) (t : Text) : depth (c :: t) = depthStep c + depth t := by
  simp [depth]

/-- A text whose brackets are balanced, whatever their kinds: none is closed before it is opened,
and all are closed at the end. -/
structure Balanced (t : Text) : Prop where
  nonneg : ∀ before, before <+: t → 0 ≤ depth before
  even : depth t = 0

instance (t : Text) : Decidable (Balanced t) :=
  decidable_of_iff ((∀ before ∈ t.inits, 0 ≤ depth before) ∧ depth t = 0)
    ⟨fun h => ⟨fun before hbefore => h.1 before ((List.mem_inits _ _).mpr hbefore), h.2⟩,
      fun h => ⟨fun before hbefore => h.nonneg before ((List.mem_inits _ _).mp hbefore), h.even⟩⟩

theorem splitUnionFrom_ne_nil (d : Int) (t : Text) : splitUnionFrom d t ≠ [] := by
  cases t with
  | nil => exact List.cons_ne_nil _ _
  | cons c t =>
    rw [splitUnionFrom]
    split
    · exact List.cons_ne_nil _ _
    · split <;> exact List.cons_ne_nil _ _

/-- A character in front of a text begins the first of its pieces, or it is a bar that ends a piece
before them. -/
theorem splitUnionFrom_cons {d : Int} {c : Char} {t piece : Text} {pieces : List Text}
    (h : splitUnionFrom (d + depthStep c) t = piece :: pieces) :
    splitUnionFrom d (c :: t)
      = if c = '|' ∧ d + depthStep c = 0 then [] :: piece :: pieces
        else (c :: piece) :: pieces := by
  simp [splitUnionFrom, h]

/-- A bar at depth zero is a cut. -/
theorem splitUnionFrom_bar {d : Int} {t : Text} (h : d + depth t = 0) (rest : Text) :
    splitUnionFrom d (t ++ '|' :: rest) = splitUnionFrom d t ++ splitUnionFrom 0 rest := by
  induction t generalizing d with
  | nil =>
    obtain rfl : d = 0 := by simpa using h
    obtain ⟨piece, pieces, hrest⟩ := List.exists_cons_of_ne_nil (splitUnionFrom_ne_nil 0 rest)
    have hbar : (0 : Int) + depthStep '|' = 0 := by decide
    rw [List.nil_append, splitUnionFrom_cons (hbar.symm ▸ hrest), if_pos ⟨rfl, hbar⟩, hrest]
    rfl
  | cons c t ih =>
    have hlater := @ih (d + depthStep c) (by rw [depth_cons] at h; omega)
    obtain ⟨piece, pieces, ht⟩ :=
      List.exists_cons_of_ne_nil (splitUnionFrom_ne_nil (d + depthStep c) t)
    rw [ht, List.cons_append] at hlater
    rw [List.cons_append, splitUnionFrom_cons hlater, splitUnionFrom_cons ht]
    split <;> rfl

/-- Where the depth stays above zero nothing is cut. -/
theorem splitUnionFrom_deep {d : Int} {t : Text} (h : ∀ before, before <+: t → 0 < d + depth before)
    {rest piece : Text} {pieces : List Text}
    (hrest : splitUnionFrom (d + depth t) rest = piece :: pieces) :
    splitUnionFrom d (t ++ rest) = (t ++ piece) :: pieces := by
  induction t generalizing d with
  | nil => simpa using hrest
  | cons c t ih =>
    have hc : 0 < d + depthStep c := by
      simpa using h [c] (List.prefix_append [c] t)
    have hlater := @ih (d + depthStep c)
      (fun before hbefore => by
        have := h (c :: before) (List.cons_prefix_cons.mpr ⟨rfl, hbefore⟩)
        rw [depth_cons] at this
        omega)
      (by rwa [depth_cons, ← Int.add_assoc] at hrest)
    rw [List.cons_append, splitUnionFrom_cons hlater, if_neg (by omega)]
    rfl

/-- Two expressions with a bar between them have the pieces of both. -/
theorem splitUnion_bar {t : Text} (h : depth t = 0) (rest : Text) :
    splitUnion (t ++ '|' :: rest) = splitUnion t ++ splitUnion rest :=
  splitUnionFrom_bar (by omega) rest

/-- A balanced expression in parentheses is one piece. -/
theorem splitUnion_group {t : Text} (h : Balanced t) :
    splitUnion ('(' :: t ++ [')']) = ['(' :: t ++ [')']] := by
  have hopen : (0 : Int) + depthStep '(' = 1 := by decide
  have hdeep : splitUnionFrom 1 (t ++ [')']) = [t ++ [')']] := by
    refine splitUnionFrom_deep (fun before hbefore => ?_) ?_
    · have := h.nonneg before hbefore
      omega
    · rw [h.even]
      rfl
  rw [List.cons_append, splitUnion, splitUnionFrom_cons (hopen.symm ▸ hdeep)]
  rfl

/-! ## 3. Members of a piece -/

/-- Whether a question mark stands in front of a member. -/
def isMarked (member : Text) : Bool :=
  member.head? = some '?'

/-- A member without the question mark in front of it. -/
def unmarked (member : Text) : Text :=
  if isMarked member then member.drop 1 else member

/-- What is read of a member behind its question mark, where `read` reads a union in
parentheses. -/
def readUnmarked (read : Text → Except GrammarFault (List Member)) (line : Nat) (member : Text) :
    Except GrammarFault (List Member) :=
  match readMember member with
  | .single m => .ok [m]
  | .group inner => read inner
  | .invalid => .error (.invalidMember member line)

section pieces

variable {read read' : Text → Except GrammarFault (List Member)} {expr : Text} {line : Nat}

theorem readPieces_cons (piece : Text) (pieces : List Text) :
    readPieces read expr line (piece :: pieces) =
      (if (trim piece).isEmpty then .error (.emptyMember expr line)
      else do
        let own ← readUnmarked read line (unmarked (trim piece))
        let others ← readPieces read expr line pieces
        pure ((if isMarked (trim piece) then [Member.null] else []) ++ own ++ others)) := by
  rw [readPieces]
  split
  · rfl
  · rename_i hsome
    unfold readUnmarked
    cases hmember : trim piece with
    | nil => exact absurd (List.isEmpty_iff.mpr hmember) hsome
    | cons c rest =>
      by_cases hc : c = '?'
      · subst hc
        have hrest : unmarked ('?' :: rest) = rest := rfl
        simp only [hrest]
        cases hread : readMember rest <;> rfl
      · simp only [isMarked, unmarked, List.head?_cons, Option.some.injEq, hc, decide_false,
          Bool.false_eq_true, if_false]
        cases hread : readMember (c :: rest) <;> simp [hc, hread]

/-- Only the groups in the pieces are read by the other reader. -/
theorem readPieces_congr {pieces : List Text}
    (h : ∀ piece ∈ pieces, ∀ inner, readMember (unmarked (trim piece)) = .group inner →
      read inner = read' inner) :
    readPieces read expr line pieces = readPieces read' expr line pieces := by
  induction pieces with
  | nil => rfl
  | cons piece pieces ih =>
    have hlater := ih fun p hp => h p (List.mem_cons_of_mem piece hp)
    have hown : readUnmarked read line (unmarked (trim piece))
        = readUnmarked read' line (unmarked (trim piece)) := by
      unfold readUnmarked
      split
      · rfl
      · exact h piece List.mem_cons_self _ ‹_›
      · rfl
    rw [readPieces_cons, readPieces_cons, hown, hlater]

/-- What a list of pieces is read as, if none of them is refused. -/
theorem readPieces_cons_eq_ok_iff {piece : Text} {pieces : List Text} {ms : List Member} :
    readPieces read expr line (piece :: pieces) = .ok ms ↔ trim piece ≠ [] ∧
      ∃ own others, readUnmarked read line (unmarked (trim piece)) = .ok own ∧
        readPieces read expr line pieces = .ok others ∧
        ms = (if isMarked (trim piece) then [.null] else []) ++ own ++ others := by
  rw [readPieces_cons]
  constructor
  · intro h
    split at h
    · exact nomatch h
    · rename_i hsome
      obtain ⟨own, hown, h⟩ := exists_of_bind_eq_ok h
      obtain ⟨others, hothers, h⟩ := exists_of_bind_eq_ok h
      exact ⟨fun hnone => hsome (List.isEmpty_iff.mpr hnone), own, others, hown, hothers,
        (Except.ok.inj h).symm⟩
  · rintro ⟨hsome, own, others, hown, hothers, rfl⟩
    rw [if_neg fun hnone => hsome (List.isEmpty_iff.mp hnone), hown, hothers]
    rfl

/-- Pieces that are read are read alike in another expression and on another line, by a reader that
reads no fewer groups. -/
theorem readPieces_mono (hread : ∀ inner ms, read inner = .ok ms → read' inner = .ok ms)
    {expr' : Text} {line' : Nat} {pieces : List Text} {ms : List Member}
    (h : readPieces read expr line pieces = .ok ms) :
    readPieces read' expr' line' pieces = .ok ms := by
  induction pieces generalizing ms with
  | nil => exact h
  | cons piece pieces ih =>
    obtain ⟨hsome, own, later, hown, hlater, rfl⟩ := readPieces_cons_eq_ok_iff.mp h
    refine readPieces_cons_eq_ok_iff.mpr ⟨hsome, own, later, ?_, ih hlater, rfl⟩
    unfold readUnmarked at hown ⊢
    split at hown
    · exact hown
    · exact hread _ own hown
    · exact nomatch hown

/-- Pieces that are read are read alike with others behind them. -/
theorem readPieces_append {expr₁ expr₂ : Text} {pieces others : List Text} {ms ns : List Member}
    (h : readPieces read expr₁ line pieces = .ok ms)
    (hothers : readPieces read expr₂ line others = .ok ns) :
    readPieces read expr line (pieces ++ others) = .ok (ms ++ ns) := by
  induction pieces generalizing ms with
  | nil =>
    obtain rfl := Except.ok.inj h
    exact readPieces_mono (fun _ _ h => h) hothers
  | cons piece pieces ih =>
    obtain ⟨hsome, own, later, hown, hlater, rfl⟩ := readPieces_cons_eq_ok_iff.mp h
    exact readPieces_cons_eq_ok_iff.mpr
      ⟨hsome, own, later ++ ns, hown, ih hlater, List.append_assoc _ _ _⟩

end pieces

theorem eq_inside_of_readMember {member inner : Text} (h : readMember member = .group inner) :
    isEnclosed '(' ')' member = true ∧ inner = inside member := by
  unfold readMember at h
  dsimp only at h
  split at h
  · cases h
  · split at h
    · cases h
    · split at h
      · cases h
      · split at h
        · cases h
        · split at h
          · exact ⟨‹_›, (Reading.group.inj h).symm⟩
          · split at h <;> cases h

theorem length_inside_lt {member : Text} (h : isEnclosed '(' ')' member = true) :
    (inside member).length < member.length := by
  cases member with
  | nil => exact nomatch h
  | cons c member =>
    simp only [inside, List.drop_succ_cons, List.drop_zero, List.length_dropLast, List.length_cons]
    omega

theorem length_le_of_mem_splitUnionFrom {d : Int} {t piece : Text}
    (h : piece ∈ splitUnionFrom d t) : piece.length ≤ t.length := by
  induction t generalizing d piece with
  | nil =>
    rw [List.mem_singleton.mp h]
  | cons c t ih =>
    obtain ⟨first, others, ht⟩ :=
      List.exists_cons_of_ne_nil (splitUnionFrom_ne_nil (d + depthStep c) t)
    have hle := @ih (d + depthStep c)
    rw [ht] at hle
    rw [splitUnionFrom_cons ht] at h
    rw [List.length_cons]
    split at h
    · rcases List.mem_cons.mp h with rfl | h
      · exact Nat.zero_le _
      · exact Nat.le_succ_of_le (hle h)
    · rcases List.mem_cons.mp h with rfl | h
      · rw [List.length_cons]
        exact Nat.succ_le_succ (hle List.mem_cons_self)
      · exact Nat.le_succ_of_le (hle (List.mem_cons_of_mem first h))

theorem length_trim_le (t : Text) : (trim t).length ≤ t.length := by
  have hstart : (trimStart t).length ≤ t.length := (List.dropWhile_sublist _).length_le
  have hend : (trim t).length ≤ (trimStart t).length := by
    rw [trim, trimEnd, dropEndWhile, List.length_reverse]
    exact (List.dropWhile_sublist _).length_le.trans_eq List.length_reverse
  exact hend.trans hstart

theorem length_unmarked_le (member : Text) : (unmarked member).length ≤ member.length := by
  unfold unmarked
  split
  · rw [List.length_drop]
    omega
  · exact Nat.le_refl _

/-- A group is shorter than the union that it is in. -/
theorem length_lt_of_group {expr piece inner : Text} (hpiece : piece ∈ splitUnion expr)
    (h : readMember (unmarked (trim piece)) = .group inner) : inner.length < expr.length := by
  obtain ⟨henclosed, rfl⟩ := eq_inside_of_readMember h
  calc (inside (unmarked (trim piece))).length
      < (unmarked (trim piece)).length := length_inside_lt henclosed
    _ ≤ (trim piece).length := length_unmarked_le _
    _ ≤ piece.length := length_trim_le piece
    _ ≤ expr.length := length_le_of_mem_splitUnionFrom hpiece

/-- Groups are never nested deeper than a union is long, so a reader that may go that deep reads as
one that may go deeper. -/
theorem membersWithin_congr {line fuel fuel' : Nat} {expr : Text} (h : expr.length < fuel)
    (h' : expr.length < fuel') : membersWithin line fuel expr = membersWithin line fuel' expr := by
  induction fuel generalizing fuel' expr with
  | zero => omega
  | succ fuel ih =>
    obtain ⟨fuel', rfl⟩ := Nat.exists_eq_succ_of_ne_zero (Nat.ne_zero_of_lt h')
    rw [membersWithin, membersWithin]
    refine readPieces_congr fun piece hpiece inner hinner => ?_
    have hlt := length_lt_of_group hpiece hinner
    exact ih (by omega) (by omega)

theorem membersWithin_eq_members {line fuel : Nat} {expr : Text} (h : expr.length < fuel) :
    membersWithin line fuel expr = members line expr :=
  membersWithin_congr h (Nat.lt_succ_self _)

/-- The members of a union, piece by piece. -/
theorem members_eq (line : Nat) (expr : Text) :
    members line expr = readPieces (members line) expr line (splitUnion expr) := by
  rw [members, membersWithin]
  refine readPieces_congr fun piece hpiece inner hinner => ?_
  exact membersWithin_eq_members (length_lt_of_group hpiece hinner)

/-- The members of a union are the same on every line. -/
theorem members_of_line {line : Nat} {expr : Text} {ms : List Member}
    (h : members line expr = .ok ms) (line' : Nat) : members line' expr = .ok ms := by
  have hwithin : ∀ (fuel : Nat) (expr : Text) (ms : List Member),
      membersWithin line fuel expr = .ok ms → membersWithin line' fuel expr = .ok ms := by
    intro fuel
    induction fuel with
    | zero => exact nofun
    | succ fuel ih => exact fun expr ms h => readPieces_mono ih h
  exact hwithin _ expr ms h

/-- Two unions with a bar between them have the members of both. -/
theorem members_bar {line : Nat} {t rest : Text} {ms ns : List Member} (hdepth : depth t = 0)
    (h : members line t = .ok ms) (hrest : members line rest = .ok ns) :
    members line (t ++ '|' :: rest) = .ok (ms ++ ns) := by
  rw [members_eq] at h hrest ⊢
  rw [splitUnion_bar hdepth]
  exact readPieces_append h hrest

/-- No form of a member but the group begins with a parenthesis. -/
theorem readMember_group (t : Text) : readMember ('(' :: t ++ [')']) = .group t := by
  obtain ⟨after, hafter⟩ : ∃ after, lower ('(' :: t ++ [')']) = '(' :: after := ⟨_, rfl⟩
  have hnull : '(' :: after ≠ "null".toList := by simp
  have hkind : kindOfName? ('(' :: after) = none := by simp [kindOfName?, kindNames]
  have hlist : "[]".toList.isSuffixOf ('(' :: t ++ [')']) = false := by
    simp [List.isSuffixOf, List.isPrefixOf]
  have hgeneric : isGenericArray ('(' :: after) = false := by
    simp [isGenericArray, List.isPrefixOf?]
  have hpseudo : isPseudoType ('(' :: after) = false := by simp [isPseudoType, pseudoTypes]
  have henclosed : isEnclosed '(' ')' ('(' :: t ++ [')']) = true := by
    rw [isEnclosed, List.getLast?_concat]
    rfl
  have hinside : inside ('(' :: t ++ [')']) = t := by simp [inside]
  simp only [readMember, hafter, if_neg hnull, hkind, hlist, hgeneric, hpseudo, henclosed,
    hinside, Bool.or_self, Bool.false_eq_true, if_false, if_true]

theorem trim_group (t : Text) : trim ('(' :: t ++ [')']) = '(' :: t ++ [')'] :=
  trim_eq_self (by show (!isBlank '(') = true; decide) (by rw [List.getLast?_concat]; decide)

/-- Parentheses around a union change neither its members nor its failure. -/
theorem members_group {line : Nat} {t : Text} (h : Balanced t) :
    members line ('(' :: t ++ [')']) = members line t := by
  have hbare : unmarked ('(' :: t ++ [')']) = '(' :: t ++ [')'] := rfl
  rw [members_eq, splitUnion_group h, readPieces_cons, trim_group, hbare, readUnmarked,
    readMember_group]
  show (do
    let own ← members line t
    let others ← readPieces (members line) ('(' :: t ++ [')']) line []
    pure ([] ++ own ++ others)) = members line t
  cases members line t with
  | error e => rfl
  | ok ms => exact congrArg Except.ok (List.append_nil ms)

/-! ## 4. Leaves -/

/-- A leaf of a union: a member behind its question mark, in no group, and whether a question mark
stands in front of it or of a group around it. -/
structure Leaf where
  name : Text
  marked : Bool
  deriving DecidableEq, Repr

/-- The leaves of a union, all groups opened, where `marked` says whether a question mark stands in
front of the union. -/
def leaves (marked : Bool) (expr : Text) : List Leaf :=
  (splitUnion expr).attach.flatMap fun ⟨piece, hpiece⟩ =>
    let marked := marked || isMarked (trim piece)
    match hread : readMember (unmarked (trim piece)) with
    | .group inner =>
      have := length_lt_of_group hpiece hread
      leaves marked inner
    | _ => [⟨unmarked (trim piece), marked⟩]
termination_by expr.length

/-- The type of a leaf, if it has one. -/
def Leaf.type? (leaf : Leaf) : Option TypeRef :=
  match readMember leaf.name with
  | .single (.type type) => some type
  | _ => none

/-- Whether a leaf admits null: it is the null marker, or it is marked. -/
def Leaf.admitsNull (leaf : Leaf) : Bool :=
  leaf.marked || readMember leaf.name = .single .null

/-- The leaves of one piece of a union. -/
def pieceLeaves (marked : Bool) (piece : Text) : List Leaf :=
  let marked := marked || isMarked (trim piece)
  match readMember (unmarked (trim piece)) with
  | .group inner => leaves marked inner
  | _ => [⟨unmarked (trim piece), marked⟩]

theorem leaves_eq (marked : Bool) (expr : Text) :
    leaves marked expr = (splitUnion expr).flatMap (pieceLeaves marked) := by
  calc leaves marked expr
      = (splitUnion expr).attach.flatMap fun piece => pieceLeaves marked piece.val := by
        rw [leaves]
        congr 1
        funext ⟨piece, hpiece⟩
        dsimp only [pieceLeaves]
        split <;> simp only [*]
    _ = ((splitUnion expr).attach.map Subtype.val).flatMap (pieceLeaves marked) :=
        (List.flatMap_map _ _ _).symm
    _ = (splitUnion expr).flatMap (pieceLeaves marked) := by rw [List.attach_map_subtype_val]

/-- Two unions with a bar between them have the leaves of both. -/
theorem leaves_bar {t : Text} (h : depth t = 0) (marked : Bool) (rest : Text) :
    leaves marked (t ++ '|' :: rest) = leaves marked t ++ leaves marked rest := by
  rw [leaves_eq, leaves_eq, leaves_eq, splitUnion_bar h, List.flatMap_append]

/-- Parentheses around a union are opened. -/
theorem leaves_group {t : Text} (h : Balanced t) (marked : Bool) :
    leaves marked ('(' :: t ++ [')']) = leaves marked t := by
  have hbare : unmarked ('(' :: t ++ [')']) = '(' :: t ++ [')'] := rfl
  have hmarked : (marked || isMarked ('(' :: t ++ [')'])) = marked := Bool.or_false marked
  rw [leaves_eq, splitUnion_group h, List.flatMap_singleton, pieceLeaves, trim_group, hbare,
    readMember_group]
  exact congrArg (leaves · t) hmarked

/-! ## 5. What a union amounts to -/

/-- The members of a union say of it what its leaves say, where `marked` tells of a question mark in
front of the union. -/
structure Tells (marked : Bool) (ms : List Member) (ls : List Leaf) : Prop where
  types : ms.filterMap Member.type? = ls.filterMap Leaf.type?
  null : (marked = true ∨ .null ∈ ms) ↔ ∃ leaf ∈ ls, leaf.admitsNull = true

section tells

variable {marked : Bool} {ms ns : List Member} {ls ks : List Leaf}

theorem Tells.append (h : Tells marked ms ls) (h' : Tells marked ns ks) :
    Tells marked (ms ++ ns) (ls ++ ks) where
  types := by rw [List.filterMap_append, List.filterMap_append, h.types, h'.types]
  null := by
    have hms := h.null
    have hns := h'.null
    simp only [List.mem_append, or_and_right, exists_or]
    rw [← hms, ← hns]
    tauto

theorem Tells.single {name : Text} {m : Member} (h : readMember name = .single m) :
    Tells marked [m] [⟨name, marked⟩] where
  types := by cases m <;> simp [Member.type?, Leaf.type?, h]
  null := by
    have hm : Member.null ∈ [m] ↔ m = .null := List.mem_singleton.trans eq_comm
    simp [hm, Leaf.admitsNull, h]

/-- A question mark in front of a piece is a null marker among the members. -/
theorem Tells.mark {own : Bool} (h : Tells (marked || own) ms ls) :
    Tells marked ((if own then [.null] else []) ++ ms) ls where
  types := by
    rw [← h.types]
    cases own <;> rfl
  null := by
    rw [← h.null]
    cases own <;> simp

variable {line : Nat}

/-- A piece tells what its leaves do, if the groups in it do. -/
theorem tells_of_piece {piece : Text} {own : List Member}
    (hgroup : ∀ inner, readMember (unmarked (trim piece)) = .group inner → ∀ marked ms,
      members line inner = .ok ms → Tells marked ms (leaves marked inner))
    (h : readUnmarked (members line) line (unmarked (trim piece)) = .ok own) :
    Tells marked ((if isMarked (trim piece) then [.null] else []) ++ own)
      (pieceLeaves marked piece) := by
  refine Tells.mark ?_
  rw [readUnmarked] at h
  rw [pieceLeaves]
  cases hread : readMember (unmarked (trim piece)) with
  | single m =>
    rw [hread] at h
    obtain rfl := Except.ok.inj h
    exact Tells.single hread
  | group inner =>
    rw [hread] at h
    exact hgroup inner hread _ own h
  | invalid =>
    rw [hread] at h
    exact nomatch h

theorem tells_of_readPieces {expr : Text} {pieces : List Text} (hsome : pieces ≠ [])
    (hgroup : ∀ piece ∈ pieces, ∀ inner, readMember (unmarked (trim piece)) = .group inner →
      ∀ marked ms, members line inner = .ok ms → Tells marked ms (leaves marked inner))
    (h : readPieces (members line) expr line pieces = .ok ms) :
    Tells marked ms (pieces.flatMap (pieceLeaves marked)) := by
  induction pieces generalizing ms with
  | nil => exact absurd rfl hsome
  | cons piece pieces ih =>
    obtain ⟨-, own, others, hown, hothers, rfl⟩ := readPieces_cons_eq_ok_iff.mp h
    have hpiece := @tells_of_piece marked line piece own (hgroup piece List.mem_cons_self) hown
    rw [List.flatMap_cons]
    cases pieces with
    | nil =>
      obtain rfl := Except.ok.inj hothers
      rwa [List.append_nil, List.flatMap_nil, List.append_nil]
    | cons other pieces =>
      exact hpiece.append (ih (List.cons_ne_nil _ _)
        (fun p hp => hgroup p (List.mem_cons_of_mem piece hp)) hothers)

/-- The members of a union tell what its leaves do, however deep the groups in it are. -/
theorem tells_of_members {expr : Text} (marked : Bool) (h : members line expr = .ok ms) :
    Tells marked ms (leaves marked expr) := by
  induction hlength : expr.length using Nat.strong_induction_on generalizing expr marked ms with
  | h n ih =>
    rw [members_eq] at h
    rw [leaves_eq]
    refine tells_of_readPieces (splitUnionFrom_ne_nil 0 expr) ?_ h
    intro piece hpiece inner hinner marked ns hns
    exact ih inner.length (hlength ▸ length_lt_of_group hpiece hinner) marked hns rfl

end tells

/-- An accepted union amounts to the type of its last leaf that has one, and to null if some leaf
admits it. -/
theorem ofMembers_eq_leaves {line : Nat} {expr : Text} {ms : List Member}
    (h : members line expr = .ok ms) :
    Typing.ofMembers ms
      = { type := ((leaves false expr).filterMap Leaf.type?).getLast?
          nullable := (leaves false expr).any Leaf.admitsNull } := by
  have htells := tells_of_members false h
  have hnull : ms.contains .null = (leaves false expr).any Leaf.admitsNull := by
    rw [Bool.eq_iff_iff, List.contains_iff_mem, List.any_eq_true, ← htells.null]
    simp
  rw [Typing.ofMembers_eq, htells.types, hnull]

/-! ## 6. The laws of unions -/

/-- **Unions are put together member by member, and parentheses are transparent.** Where the
brackets of an expression are balanced and it and another are accepted, so is the union of the
two, with the members of the one and then of the other. An expression in parentheses has the
members or the failure of the expression. The leaves, with all groups opened, go along with both,
and they alone say what an accepted union amounts to: the type of the last leaf that has one, and
null exactly if some leaf is the null marker or has a question mark in front of it or of a group
around it. -/
theorem members_union {A : Text} (hA : Balanced A) (B : Text) (line : Nat) :
    (∀ ms ns, members line A = .ok ms → members line B = .ok ns →
      members line (A ++ '|' :: B) = .ok (ms ++ ns)) ∧
    members line ('(' :: A ++ [')']) = members line A ∧
    (leaves false (A ++ '|' :: B) = leaves false A ++ leaves false B ∧
      leaves false ('(' :: A ++ [')']) = leaves false A) ∧
    ∀ expr ms, members line expr = .ok ms →
      (Typing.ofMembers ms).type = ((leaves false expr).filterMap Leaf.type?).getLast? ∧
      ((Typing.ofMembers ms).nullable = true ↔
        ∃ leaf ∈ leaves false expr, leaf.marked = true ∨ readMember leaf.name = .single .null) := by
  refine ⟨fun ms ns => members_bar hA.even, members_group hA,
    ⟨leaves_bar hA.even false B, leaves_group hA false⟩, fun expr ms h => ?_⟩
  rw [ofMembers_eq_leaves h]
  refine ⟨rfl, ?_⟩
  rw [List.any_eq_true]
  simp only [Leaf.admitsNull, Bool.or_eq_true, decide_eq_true_eq]

/-- A marked group with a bar inside, in a union with a type whose brackets hold another bar: the
group is opened, and its mark is what makes the union admit null. -/
theorem members_union_of_marked_group :
    members 1 "?(int|Foo)|list<A|B>".toList
      = .ok [.null, .type (.primitive .int), .type (.ofClass "Foo".toList),
        .type (.primitive .array)] ∧
    members 1 "(?(int|Foo))".toList
      = .ok [.null, .type (.primitive .int), .type (.ofClass "Foo".toList)] ∧
    ∃ leaf ∈ leaves false "?(int|Foo)|list<A|B>".toList,
      leaf.marked = true ∨ readMember leaf.name = .single .null := by
  have hbalanced : Balanced "?(int|Foo)".toList := by decide +kernel
  obtain ⟨hbar, hgroup, _, hleaves⟩ := members_union hbalanced "list<A|B>".toList 1
  have hfirst : members 1 "?(int|Foo)".toList
      = .ok [.null, .type (.primitive .int), .type (.ofClass "Foo".toList)] := by decide +kernel
  have hsecond : members 1 "list<A|B>".toList = .ok [.type (.primitive .array)] := by
    decide +kernel
  have hunion := hbar _ _ hfirst hsecond
  exact ⟨hunion, hgroup.trans hfirst, (hleaves _ _ hunion).2.mp (by decide)⟩

end Docblock

end ViewContract
