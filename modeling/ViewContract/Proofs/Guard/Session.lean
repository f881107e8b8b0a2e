/-
ViewContract.Proofs.Guard.Session — what a writer holds after any calls.

A writer is asked for one declaration or for several, over and over, and some of the calls fail.
Whatever comes, it holds the guards of the declarations it could write, as if they had been
written at once:

  §1 one call. Guard by guard or all guards at once, the writer ends up with the same
     (`perform_eq_writeAll`): only the first guard of a declaration can be without text.
  §2 the invariant `Wrote`, which one declaration preserves, and so does every call.
  §3 sessions (`session_holds`).
-/
import ViewContract.Guard.Session
import ViewContract.Proofs.Guard.Statements

namespace ViewContract

namespace Writer

/-! ## 1. One call -/

/-- Guards that all have a text are written one after another. -/
theorem each_put {gs : List Guard} {w : Writer} {t : Text}
    (h : Guard.statementsAfter w.delimiters w.count gs = .ok t) :
    w.each put gs = ({ w with text := w.text ++ t, count := w.count + gs.length }, .ok ()) := by
  induction gs generalizing w t with
  | nil =>
    obtain rfl := Except.ok.inj h
    simp [each]
  | cons g gs ih =>
    obtain ⟨statement, hstatement, h⟩ := exists_of_bind_eq_ok h
    obtain ⟨others, hothers, h⟩ := exists_of_bind_eq_ok h
    obtain rfl := Except.ok.inj h
    have hput : w.put g = ({ w with
        text := w.text ++ (if 0 < w.count then ['\n'] else []) ++ statement
        count := w.count + 1 }, .ok ()) := by
      simp only [put, hstatement]
    rw [each, hput]
    simp only
    rw [ih hothers]
    simp [Nat.add_assoc, Nat.add_comm 1]

/-- A guard without text leaves the writer as it was, and no guard after it is written. -/
theorem each_put_of_error {g : Guard} (gs : List Guard) {w : Writer} {fault : RangeFault}
    (h : g.statement w.delimiters (0 < w.count) = .error fault) :
    w.each put (g :: gs) = (w, .error fault) := by
  simp only [each, put, h]

/-- Guard by guard, a declaration is written as it is at once: where it cannot be written, its
first guard has no text yet. -/
theorem declare_eq_write (w : Writer) (d : Declaration) :
    w.declare d = match w.write d with
      | .ok w' => (w', .ok ())
      | .error fault => (w, .error fault) := by
  unfold declare
  cases htext : Guard.statementsAfter w.delimiters w.count d.guards with
  | ok t =>
    rw [each_put htext, write, htext]
    rfl
  | error fault =>
    have hwrite : w.write d = .error fault := by
      rw [write, htext]
      rfl
    rw [hwrite]
    refine each_put_of_error d.typeGuards ?_
    rcases error_of_bind htext with h | ⟨_, _, h⟩
    · exact h
    · -- The type of a variable can always be written.
      obtain ⟨others, hothers⟩ :=
        (exists_statements_iff w.delimiters d.typeGuards (w.count + 1)).mpr
        fun g hg => Declaration.exists_action_of_mem_typeGuards hg
      rcases error_of_bind h with h | ⟨_, _, h⟩
      · rw [hothers] at h
        exact nomatch h
      · exact nomatch h

theorem each_declare (w : Writer) (ds : List Declaration) : w.each declare ds = w.writeAll ds := by
  induction ds generalizing w with
  | nil => rfl
  | cons d ds ih =>
    rw [each, writeAll, declare_eq_write]
    cases w.write d with
    | ok w' => exact ih w'
    | error fault => rfl

/-- A call is answered as if its declarations were written up to the first that fails. -/
theorem perform_eq_writeAll (w : Writer) (call : Call) :
    w.perform call = w.writeAll call.declarations := by
  cases call with
  | batch ds => exact each_declare w ds
  | one d =>
    rw [perform, declare_eq_write, Call.declarations, writeAll]
    cases w.write d <;> rfl

/-! ## 2. One declaration, and several -/

theorem write_of_tooLong (w : Writer) {d : Declaration} (hd : d.TooLong) :
    w.write d = .error .digits := by
  cases h : Guard.statementsAfter w.delimiters w.count d.guards with
  | ok t =>
    have hshort := Declaration.exists_actions_iff.mp ((exists_statements_iff _ _ _).mp ⟨t, h⟩)
    exact absurd hshort (Declaration.tooLong_iff.mp hd)
  | error fault =>
    rw [write, h, Guard.eq_digits_of_statementsAfter h]
    rfl

theorem exists_write (w : Writer) {d : Declaration} (hd : ¬ d.TooLong) :
    ∃ w', w.write d = .ok w' := by
  rw [Declaration.tooLong_iff, not_not] at hd
  obtain ⟨t, ht⟩ := (exists_statements_iff w.delimiters d.guards w.count).mpr
    (Declaration.exists_actions_iff.mpr hd)
  rw [write, ht]
  exact ⟨_, rfl⟩

/-- A writer that holds the guards of declarations: their text, and how many they are. -/
structure Wrote (δ : Delimiters) (ds : List Declaration) (w : Writer) : Prop where
  delimiters : w.delimiters = δ
  text : guardText δ ds = .ok w.text
  count : w.count = (ds.flatMap Declaration.guards).length

theorem wrote_nil (δ : Delimiters) : Wrote δ [] { delimiters := δ } := ⟨rfl, rfl, rfl⟩

section wrote

variable {δ : Delimiters} {ds : List Declaration} {w : Writer}

theorem Wrote.write (hw : Wrote δ ds w) {d : Declaration} {w' : Writer} (h : w.write d = .ok w') :
    Wrote δ (ds ++ [d]) w' := by
  obtain ⟨t, ht, h⟩ := exists_of_bind_eq_ok h
  obtain rfl := Except.ok.inj h
  refine ⟨hw.delimiters, ?_, ?_⟩
  · rw [hw.delimiters, hw.count, ← Nat.zero_add (List.length _)] at ht
    rw [guardText, List.flatMap_append, List.flatMap_singleton]
    exact Guard.statementsAfter_append hw.text ht
  · rw [List.flatMap_append, List.flatMap_singleton, List.length_append, hw.count]

/-- Several declarations are written up to the first that is too long. -/
theorem Wrote.writeAll (hw : Wrote δ ds w) (ds' : List Declaration) :
    Wrote δ (ds ++ ds'.takeWhile fun d => ¬ d.TooLong) (w.writeAll ds').1 := by
  induction ds' generalizing ds w with
  | nil => simpa [Writer.writeAll] using hw
  | cons d ds' ih =>
    rw [Writer.writeAll]
    by_cases hd : d.TooLong
    · simpa [write_of_tooLong w hd, hd] using hw
    · obtain ⟨w', hw'⟩ := w.exists_write hd
      simpa [hw', hd] using ih (hw.write hw')

/-- A call succeeds exactly if none of its declarations is too long. -/
theorem snd_writeAll (w : Writer) (ds : List Declaration) :
    (w.writeAll ds).2 = if ∃ d ∈ ds, d.TooLong then .error .digits else .ok () := by
  induction ds generalizing w with
  | nil => simp [Writer.writeAll]
  | cons d ds ih =>
    rw [Writer.writeAll]
    by_cases hd : d.TooLong
    · simp [write_of_tooLong w hd, hd]
    · obtain ⟨w', hw'⟩ := w.exists_write hd
      simp [hw', hd, ih]

end wrote

end Writer

/-! ## 3. Sessions -/

/-- The declarations that a call writes: all before the first that is too long. -/
def Call.written (call : Call) : List Declaration :=
  call.declarations.takeWhile fun d => ¬ d.TooLong

namespace Writer

theorem session_concat (δ : Delimiters) (calls : List Call) (call : Call) :
    session δ (calls ++ [call]) = ((session δ calls).perform call).1 := by
  unfold session
  rw [List.foldl_append]
  rfl

theorem wrote_session (δ : Delimiters) (calls : List Call) :
    Wrote δ (calls.flatMap Call.written) (session δ calls) := by
  induction calls using List.reverseRecOn with
  | nil => exact wrote_nil δ
  | append_singleton calls call ih =>
    rw [session_concat, perform_eq_writeAll, List.flatMap_append, List.flatMap_singleton]
    exact ih.writeAll call.declarations

/-- **What a writer holds after any calls**: the guards of the declarations written so far, as they
are written at once, each but the very first with the trim marker. A declaration is written after
them, or it is too long, and then the call fails and the writer is left as it was. -/
theorem session_holds (δ : Delimiters) (calls : List Call) :
    let w := session δ calls
    let ds := calls.flatMap Call.written
    (w.delimiters = δ ∧ guardText δ ds = .ok w.text ∧
      w.count = ds.length + ds.countP (·.type.isSome)) ∧
    (∃ statements, Guard.Statements δ 0 (ds.flatMap Declaration.guards) statements ∧
      statements.length = w.count ∧ w.text = ['\n'].intercalate statements ∧
      ∀ i statement, statements[i]? = some statement → δ.opensGuard (0 < i) <+: statement) ∧
    (∀ d, w.perform (.one d) = if d.TooLong then (w, .error .digits)
      else (session δ (calls ++ [.one d]), .ok ())) ∧
    ∀ call, w.perform call = w.writeAll call.declarations ∧
      (w.perform call).2 =
        if ∃ d ∈ call.declarations, d.TooLong then .error .digits else .ok () := by
  intro w ds
  have hw : Wrote δ ds w := wrote_session δ calls
  refine ⟨⟨hw.delimiters, hw.text, ?_⟩, ?_, ?_, ?_⟩
  · rw [hw.count, length_flatMap_guards]
  · obtain ⟨statements, hstatements, htext⟩ := guardText_eq_ok_iff.mp hw.text
    refine ⟨statements, hstatements, ?_, htext, ?_⟩
    · rw [hstatements.length_eq, hw.count]
    · intro i statement hi
      obtain ⟨g, _, hg⟩ := hstatements.exists_guard hi
      rw [Nat.zero_add] at hg
      exact Guard.opensGuard_prefix hg
  · intro d
    rw [session_concat]
    change w.perform (.one d) = if d.TooLong then _ else ((w.perform (.one d)).1, _)
    rw [perform_eq_writeAll, Call.declarations, writeAll]
    by_cases hd : d.TooLong
    · rw [write_of_tooLong w hd, if_pos hd]
    · obtain ⟨w', hw'⟩ := w.exists_write hd
      rw [hw', if_neg hd]
      rfl
  · intro call
    refine ⟨perform_eq_writeAll w call, ?_⟩
    rw [perform_eq_writeAll]
    exact snd_writeAll w call.declarations

/-- A call that fails in its second declaration has written the first. -/
example : (session {} [.batch [{ name := ['a'] },
    { name := ['b'], required := false, default := some (.int (10 ^ 4300)) }, { name := ['c'] }],
    .one { name := ['d'], type := some (.primitive .int) }]).count = 3 := by
  decide +kernel

end Writer

end ViewContract
