/-
ViewContract.Proofs.Invisible — guards that pass leave no trace.

A template of plain text, outputs of names and annotations is compiled to a page, with the guards
of the annotations or with nothing in their places. If every declared variable is given and
accepted, the guards write nothing and bind nothing. So the page comes to what its items write,
and checks make no difference to it (`guards_invisible`).

  §1 what the items of a page write.
  §2 the run of a page whose guards pass.
  §3 the guards of variables that are given.
  §4 plain templates as pages.
  §5 the result.
-/
import ViewContract.Proofs.Guard.Exact
import ViewContract.Proofs.Outcome
import ViewContract.Proofs.Template.Page
import ViewContract.Proofs.Template.Preprocess

namespace ViewContract.Template

open ViewContract.Text
open ViewContract.Annotation (extract replacement replacement_eq_ok_iff code_eq_ok_iff
  sound_of_read)

/-! ## 1. What items write -/

/-- What an item writes. -/
def Item.written (env : Environment) (context : Context) : Item → Except RenderError Text
  | .char c => .ok [c]
  | .output name =>
    outputText env (wordExpr name) ((constantOfName? name).elim (context.value? name) some)

/-- What items write one after another. -/
def written (env : Environment) (context : Context) : List Item → Except RenderError Text
  | [] => .ok []
  | i :: is => do
    let text ← i.written env context
    let others ← written env context is
    pure (text ++ others)

/-! ## 2. The run of a page -/

section runs

variable {env : Environment} {registry : Registry} {context : Context}

theorem resultOf_runNodes_textNodes (read : Text) (nodes : List Node) :
    resultOf (runNodes env registry context (textNodes read ++ nodes))
      = (resultOf (runNodes env registry context nodes)).map fun (text, context') =>
          (read.reverse ++ text, context') := by
  cases read with
  | nil =>
    cases h : resultOf (runNodes env registry context nodes) <;> simp [textNodes, h, Except.map]
  | cons c read =>
    rw [textNodes, if_neg (by simp), List.singleton_append, resultOf_runNodes_cons]
    rfl

theorem resultOf_item (name : Text) :
    resultOf (runNode env registry context (.output (wordExpr name)))
      = ((Item.output name).written env context).map fun text => (text, context) := by
  have heval : resultOf (eval registry context (wordExpr name))
      = .ok ((constantOfName? name).elim (context.value? name) some) := by
    rw [wordExpr]
    cases constantOfName? name with
    | none => rw [Option.elim_none, eval, resultOf_pure, Option.elim_none]
    | some v => rw [Option.elim_some, eval, resultOf_pure, Option.elim_some]
  rw [resultOf_output, heval, Item.written]
  rfl

/-- Guards pass in a context: they write nothing and leave it as it is. -/
def Pass (env : Environment) (registry : Registry) (context : Context) (gs : List Guard) : Prop :=
  resultOf (runNodes env registry context (gs.map Guard.node)) = .ok ([], context)

/-- A page whose guards pass comes to what its items write. -/
theorem resultOf_page {ps : List Part}
    (hpass : ∀ gs, Part.guards gs ∈ ps → Pass env registry context gs) (read : Text) :
    resultOf (runNodes env registry context (nodesAfter read ps))
      = (written env context (itemsOf ps)).map fun text => (read.reverse ++ text, context) := by
  induction ps generalizing read with
  | nil =>
    have h : resultOf (runNodes env registry context (textNodes read ++ [])) = _ :=
      resultOf_runNodes_textNodes read []
    rw [List.append_nil] at h
    rw [nodesAfter, h, itemsOf, written, runNodes]
    rfl
  | cons p ps ih =>
    have hrest := ih fun gs hgs => hpass gs (List.mem_cons_of_mem p hgs)
    cases p with
    | item i =>
      cases i with
      | char c =>
        rw [nodesAfter, hrest, itemsOf, written, Item.written]
        cases written env context (itemsOf ps) with
        | error e => rfl
        | ok text => simp [Except.map, bind, Except.bind, pure, Except.pure]
      | output name =>
        rw [nodesAfter, resultOf_runNodes_textNodes, resultOf_runNodes_cons, resultOf_item,
          itemsOf, written]
        cases (Item.output name).written env context with
        | error e => rfl
        | ok text =>
          simp only [Except.map, Except.bind, hrest, bind, pure, Except.pure]
          cases written env context (itemsOf ps) <;> rfl
    | guards gs =>
      have hgs := hpass gs List.mem_cons_self
      cases gs with
      | nil => exact hrest read
      | cons g gs =>
        rw [nodesAfter, resultOf_runNodes_textNodes, resultOf_runNodes_append, hgs, itemsOf]
        simp only [Except.bind, hrest]
        cases written env context (itemsOf ps) <;> rfl

end runs

/-! ## 3. Variables that are given -/

section given

variable {env : Environment} {registry : Registry} {context : Context} {ds : List Declaration}

/-- Where all variables are given nothing is bound. -/
theorem settledContext_of_given (h : ∀ d ∈ ds, (context.given? d.name).isSome = true) :
    settledContext context ds = context := by
  induction ds with
  | nil => rfl
  | cons d ds ih =>
    rw [settledContext, List.foldl_cons, Declaration.after, h d List.mem_cons_self, Bool.true_or,
      if_pos rfl]
    exact ih fun d' hd' => h d' (List.mem_cons_of_mem d hd')

/-- The guards of variables that are given and accepted pass. -/
theorem pass_of_given (hwritable : ∀ g ∈ ds.flatMap Declaration.guards, g.Writable)
    (hdistinct : (ds.map Declaration.name).Nodup)
    (h : ∀ d ∈ ds, ∃ v, context.value? d.name = some v ∧ v ≠ .null ∧ d.accepts registry v = true) :
    Pass env registry context (ds.flatMap Declaration.guards) := by
  have hgiven : ∀ d ∈ ds, ∃ v, context.given? d.name = some v ∧ d.accepts registry v = true := by
    intro d hd
    obtain ⟨v, hv, hnull, haccepts⟩ := h d hd
    exact ⟨v, given?_eq_some.mpr ⟨hv, hnull⟩, haccepts⟩
  have hmet : ∀ d ∈ ds, d.Met registry context := by
    intro d hd
    obtain ⟨v, hv, haccepts⟩ := hgiven d hd
    rw [Declaration.Met, hv]
    exact haccepts
  have hsettled : settledContext context ds = context := by
    refine settledContext_of_given fun d hd => ?_
    obtain ⟨v, hv, _⟩ := hgiven d hd
    rw [hv, Option.isSome_some]
  have hrun :
      resultOf (runNodes env registry context ((ds.flatMap Declaration.guards).map Guard.node))
      = .ok ([], settledContext context ds) :=
    (run_declarations hdistinct fun d => writable_fallback hwritable).1 hmet
  rw [hsettled] at hrun
  exact hrun

end given

/-! ## 4. Plain templates -/

/-- The items of a template with the guards of its annotations between them. -/
def partsOf (items : List (List Item)) (gss : List (List Guard)) : List Part :=
  interleave (items.map (List.map Part.item)) (gss.map fun gs => [.guards gs])

theorem itemsOf_flatten (items : List (List Item)) :
    itemsOf (items.map (List.map Part.item)).flatten = items.flatten := by
  induction items with
  | nil => rfl
  | cons is items ih => simp [ih]

theorem itemsOf_partsOf : ∀ (items : List (List Item)) (gss : List (List Guard)),
    itemsOf (partsOf items gss) = items.flatten
  | [], _ => rfl
  | is :: items, [] => itemsOf_flatten (is :: items)
  | is :: items, gs :: gss => by
    have h := itemsOf_partsOf items gss
    rw [partsOf] at h
    simp [partsOf, interleave, itemsOf, h]

theorem mem_of_guards_mem_partsOf {items : List (List Item)} {gss : List (List Guard)}
    {gs : List Guard} (h : Part.guards gs ∈ partsOf items gss) : gs ∈ gss := by
  rcases mem_interleave h with ⟨p, hp, hgs⟩ | ⟨p, hp, hgs⟩
  · obtain ⟨is, _, rfl⟩ := List.mem_map.mp hp
    obtain ⟨i, _, hi⟩ := List.mem_map.mp hgs
    exact nomatch hi
  · obtain ⟨gs', hgs', rfl⟩ := List.mem_map.mp hp
    obtain rfl := Part.guards.inj (List.mem_singleton.mp hgs)
    exact hgs'

theorem partsOf_concat (items : List (List Item)) (last : List Item) {gss : List (List Guard)}
    (hlength : gss.length = items.length) :
    partsOf (items ++ [last]) gss = partsOf items gss ++ last.map Part.item := by
  rw [partsOf, List.map_append, List.map_singleton,
    interleave_concat _ _ _ (by simpa using hlength)]
  rfl

/-- Guards that have a text. -/
def GuardsOf (δ : Delimiters) (gs : List Guard) (code : Text) : Prop :=
  (∀ g ∈ gs, g.Writable) ∧ Guard.statementsAfter δ 0 gs = .ok code

/-- Items and guards in turns are a page of their texts in turns. -/
theorem page_partsOf {env : Environment} {items : List (List Item)} {gss : List (List Guard)}
    {codes : List Text} (hplain : ∀ is ∈ items, ∀ i ∈ is, i.Plain env)
    (hcodes : List.Forall₂ (GuardsOf env.delimiters) gss codes) :
    Page env (partsOf items gss)
      (interleave (items.map fun is => is.flatMap (Item.source env.delimiters)) codes) := by
  have hall : ∀ {items : List (List Item)}, (∀ is ∈ items, ∀ i ∈ is, i.Plain env) →
      Page env (items.map (List.map Part.item)).flatten
        (items.map fun is => is.flatMap (Item.source env.delimiters)).flatten := by
    intro items hplain
    induction items with
    | nil => exact .nil
    | cons is items ih =>
      exact (page_items (hplain is List.mem_cons_self)).append
        (ih fun js hjs => hplain js (List.mem_cons_of_mem is hjs))
  induction hcodes generalizing items with
  | nil =>
    cases items with
    | nil => exact .nil
    | cons is items => exact hall hplain
  | cons hcode _ ih =>
    cases items with
    | nil => exact .nil
    | cons is items =>
      have hrest := ih fun js hjs => hplain js (List.mem_cons_of_mem is hjs)
      exact ((page_items (hplain is List.mem_cons_self)).append
        (page_guards hcode.1 hcode.2)).append hrest

/-- Where no annotation reaches the end of a template, some text stands behind the last. -/
theorem exists_last_piece (source : Text) : ∀ (cursor : Nat) (l : List Annotation),
    cursor < source.length → (∀ a ∈ l, a.stop < source.length) →
    ∃ earlier last, pieces source cursor l = earlier ++ [last] ∧ last ≠ []
  | cursor, [], hcursor, _ => ⟨[], source.drop cursor, rfl, by simpa using hcursor⟩
  | _, a :: rest, _, hstop => by
    obtain ⟨earlier, last, hpieces, hlast⟩ := exists_last_piece source a.stop rest
      (hstop a List.mem_cons_self) fun b hb => hstop b (List.mem_cons_of_mem a hb)
    exact ⟨_ :: earlier, last, by rw [pieces, hpieces, List.cons_append], hlast⟩

section plain

variable {env : Environment} {source : Text} {items : List (List Item)}
  (hpieces : templatePieces source
    = items.map fun is => is.flatMap (Item.source env.delimiters))
  (hlast : ∀ a ∈ (extract source).value, a.stop < source.length)

include hpieces hlast

theorem partsOf_ends {gss : List (List Guard)}
    (hlength : gss.length = (extract source).value.length) :
    partsOf items gss = [] ∨ ∃ ps i, partsOf items gss = ps ++ [.item i] := by
  have hcount : items.length = (extract source).value.length + 1 := by
    have h := congrArg List.length hpieces
    rw [templatePieces, length_pieces, List.length_map] at h
    exact h.symm
  rw [templatePieces] at hpieces
  obtain ⟨first, last, rfl⟩ : ∃ first last, items = first ++ [last] := by
    have hne : items ≠ [] := by
      rintro rfl
      cases hcount
    exact ⟨_, _, (List.dropLast_concat_getLast hne).symm⟩
  have hgss : gss.length = first.length := by
    rw [List.length_append, List.length_singleton] at hcount
    omega
  rw [partsOf_concat first last hgss]
  rw [List.map_append, List.map_singleton] at hpieces
  rcases List.eq_nil_or_concat last with rfl | ⟨is, i, rfl⟩
  · -- without an item behind the last annotation there is no annotation and no text
    left
    by_cases hsource : source = []
    · subst hsource
      have hempty : (extract []).value.length = 0 := rfl
      rw [hempty] at hlength
      rw [List.length_eq_zero_iff.mp hlength, List.length_eq_zero_iff.mp (hgss.symm.trans hlength)]
      rfl
    · obtain ⟨earlier, text, hcut, hne⟩ := exists_last_piece source 0 (extract source).value
        (List.length_pos_iff.mpr hsource) hlast
      rw [hcut] at hpieces
      exact absurd (List.append_inj_right' hpieces rfl) (by simpa using hne)
  · right
    exact ⟨partsOf first gss ++ is.map Part.item, i, by simp⟩

/-- A plain template whose guards pass is rendered to what its items write, unless raw code in it
is not allowed. -/
theorem resultOf_render_plain (henv : env.Regular)
    (hplain : ∀ is ∈ items, ∀ i ∈ is, i.Plain env) {settings : Settings} {registry : Registry}
    {values : Context} {codes : List Text} {gss : List (List Guard)}
    (hcodes : Codes settings env.delimiters (extract source).value codes)
    (hguards : List.Forall₂ (GuardsOf env.delimiters) gss codes)
    (hpass : ∀ gs ∈ gss, Pass env registry (Context.ofValues values) gs) :
    resultOf (render env settings registry values source)
      = ((checkRawCode env settings {} source).mapError RenderError.template).bind fun _ =>
          written env (Context.ofValues values) (withoutFinalFeed items.flatten) := by
  have hlength : gss.length = (extract source).value.length :=
    hguards.length_eq.trans hcodes.length_eq.symm
  obtain ⟨qs, hpage, hitems, hsub⟩ := (page_partsOf hplain hguards).exists_prepare henv
    (partsOf_ends hpieces hlast hlength)
  rw [← hpieces] at hpage
  have hcompile := compile_of_codes hcodes
  rw [← templatePieces] at hcompile
  have hnodes := nodesOf_page henv hpage
  have hrun : resultOf (runNodes env registry (Context.ofValues values) (nodesAfter [] qs)) = _ :=
    resultOf_page (fun gs hgs => hpass gs (mem_of_guards_mem_partsOf (hsub _ hgs))) []
  rw [hitems, itemsOf_partsOf] at hrun
  have hpreprocess : (preprocess env settings {} source).value
      = (checkRawCode env settings {} source).bind fun _ =>
          .ok (interleave (templatePieces source) codes) := by
    rw [preprocess]
    cases checkRawCode env settings {} source with
    | error e => rfl
    | ok _ => exact congrArg (Except.mapError _) hcompile
  rw [render, resultOf_bind]
  change ((preprocess env settings {} source).value.mapError RenderError.template).bind _ = _
  rw [hpreprocess]
  cases checkRawCode env settings {} source with
  | error e => rfl
  | ok _ =>
    simp only [Except.bind, Except.mapError, resultOf_bind, resultOf_ofExcept, hnodes, hrun]
    cases written env (Context.ofValues values) (withoutFinalFeed items.flatten) <;> rfl

end plain

/-! ## 5. The result -/

theorem forall₂_map {α β γ : Type} {R : β → γ → Prop} {f : α → β} {g : α → γ} {l : List α}
    (h : ∀ a ∈ l, R (f a) (g a)) : List.Forall₂ R (l.map f) (l.map g) :=
  List.forall₂_map_left_iff.mpr (List.forall₂_map_right_iff.mpr (List.forall₂_same.mpr h))

/-- An item is plain in the usual marks: a character is no part of a mark and no carriage return,
and what is written out is a name. -/
def Item.isPlain : Item → Bool
  | .char c => c ∉ ['\x7b', '\x7d', '%', '#', '\r']
  | .output name => isOutputName name

theorem regular_strict (strict : Bool) : ({ strict } : Environment).Regular :=
  ⟨regular_default.distinct, regular_default.starts, regular_default.plain, regular_default.notRaw,
    regular_default.ends, regular_default.oneLine⟩

theorem plain_of_isPlain (strict : Bool) {i : Item} (h : i.isPlain = true) :
    i.Plain { strict } := by
  cases i with
  | char c =>
    simp only [Item.isPlain, decide_eq_true_eq, List.mem_cons, List.not_mem_nil, or_false,
      not_or] at h
    exact ⟨h.2.2.2.2, fun before rest => opening?_of_ne_brace h.1 before rest⟩
  | output name =>
    obtain ⟨c, w, rfl, hparts, _⟩ := exists_of_isOutputName h
    refine ⟨h, fun hhead => ?_⟩
    have hc : c = '\x7d' := Option.some.inj hhead
    exact absurd (hparts c List.mem_cons_self) (by rw [hc]; decide)

/-- **Guards that pass are invisible.** Let a template consist of plain text, outputs of names and
annotations that can be compiled, of which none reaches its end. In a context that gives every
declared variable a value, not null and accepted by each of its types, it comes to the same with
checks and without. Unless raw code in it is not allowed, that is what its text and its outputs
write. -/
theorem guards_invisible (strict : Bool) (settings : Settings) (registry : Registry)
    (values : Context) (source : Text) (items : List (List Item))
    (hpieces : templatePieces source = items.map fun is => is.flatMap (Item.source {}))
    (hplain : ∀ is ∈ items, ∀ i ∈ is, i.isPlain = true)
    (hlast : ∀ a ∈ (extract source).value, a.stop < source.length)
    (hcompiles : ∀ a ∈ (extract source).value, ∃ code, a.code {} = .ok code)
    (hgiven : ∀ a ∈ (extract source).value, ∀ ds, a.declarations.value = .ok ds → ∀ d ∈ ds,
      ∃ v, (Context.ofValues values).value? d.name = some v ∧ v ≠ .null ∧
        d.accepts registry v = true) :
    resultOf (render { strict } { settings with enabled := true } registry values source)
      = resultOf (render { strict } { settings with enabled := false } registry values source) ∧
    (checkRawCode { strict } settings {} source = .ok () →
      resultOf (render { strict } { settings with enabled := true } registry values source)
        = written { strict } (Context.ofValues values) (withoutFinalFeed items.flatten)) := by
  have henv := regular_strict strict
  have hitems : ∀ is ∈ items, ∀ i ∈ is, i.Plain { strict } :=
    fun is his i hi => plain_of_isPlain strict (hplain is his i hi)
  have hrender : ∀ (enabled : Bool) (codes : List Text) (gss : List (List Guard)),
      Codes { settings with enabled } {} (extract source).value codes →
      List.Forall₂ (GuardsOf {}) gss codes →
      (∀ gs ∈ gss, Pass { strict } registry (Context.ofValues values) gs) →
      resultOf (render { strict } { settings with enabled } registry values source)
        = ((checkRawCode { strict } settings {} source).mapError RenderError.template).bind fun _ =>
            written { strict } (Context.ofValues values) (withoutFinalFeed items.flatten) :=
    fun _ _ _ hcodes hguards hpass =>
      resultOf_render_plain hpieces hlast henv hitems hcodes hguards hpass
  have hdisabled := hrender false ((extract source).value.map fun _ => [])
    ((extract source).value.map fun _ => []) (codes_disabled rfl _)
    (forall₂_map fun a _ => ⟨fun g hg => absurd hg List.not_mem_nil, rfl⟩)
    (fun gs hgs => by
      obtain ⟨a, _, rfl⟩ := List.mem_map.mp hgs
      rfl)
  have hannotations : ∀ a ∈ (extract source).value, ∃ gs code,
      replacement { settings with enabled := true } {} a.form a.body = .ok code ∧
        GuardsOf {} gs code ∧ Pass { strict } registry (Context.ofValues values) gs := by
    intro a ha
    obtain ⟨code, hcode⟩ := hcompiles a ha
    obtain ⟨ds, hds, htext⟩ := code_eq_ok_iff.mp hcode
    obtain ⟨hsound, hdistinct⟩ := sound_of_read (eq_ok_of_mapError hds)
    have hwritable := writable_of_guardText hsound htext
    exact ⟨_, code, (replacement_eq_ok_iff rfl).mpr hcode, ⟨hwritable, htext⟩,
      pass_of_given hwritable hdistinct (hgiven a ha ds hds)⟩
  choose! guards code hcode hguards hpass using hannotations
  have henabled := hrender true ((extract source).value.map code)
    ((extract source).value.map guards)
    (List.forall₂_map_right_iff.mpr (List.forall₂_same.mpr hcode)) (forall₂_map hguards)
    (fun gs hgs => by
      obtain ⟨a, ha, rfl⟩ := List.mem_map.mp hgs
      exact hpass a ha)
  refine ⟨henabled.trans hdisabled.symm, fun hraw => ?_⟩
  rw [henabled, hraw]
  rfl

/-- A greeting that declares what it writes out, with a line feed at its end. -/
def greeting : Text :=
  "Hi @expects(int $n)\x7b\x7b n \x7d\x7d!\n".toList

/-- The guards of a greeting for three leave no trace. -/
theorem guards_invisible_of_greeting :
    resultOf (render {} {} {} [("n".toList, .int 3)] greeting) = .ok "Hi 3!".toList ∧
      resultOf (render {} { enabled := false } {} [("n".toList, .int 3)] greeting)
        = .ok "Hi 3!".toList := by
  have hspans : (extract greeting).value.all (fun a => a.stop < greeting.length &&
      decide (a.declarations.value
        = .ok [⟨"n".toList, true, some (.primitive .int), none, false⟩]) &&
      (a.code {}).toOption.isSome) = true := by
    decide +kernel
  have hspan := fun a ha => List.all_eq_true.mp hspans a ha
  simp only [Bool.and_eq_true, decide_eq_true_eq] at hspan
  obtain ⟨hsame, hwrites⟩ := guards_invisible false {} {} [("n".toList, .int 3)] greeting
    ["Hi ".toList.map .char, [.output "n".toList, .char '!', .char '\n']]
    (by decide +kernel) (by decide +kernel) (fun a ha => (hspan a ha).1.1)
    (fun a ha => by
      cases hcode : a.code {} with
      | ok code => exact ⟨code, rfl⟩
      | error e =>
        have hsome := (hspan a ha).2
        rw [hcode] at hsome
        exact nomatch hsome)
    (fun a ha ds hds d hd => by
      have hdeclared := Except.ok.inj (hds.symm.trans (hspan a ha).1.2)
      rw [hdeclared] at hd
      rw [List.mem_singleton.mp hd]
      exact ⟨.int 3, rfl, nofun, rfl⟩)
  have hrendered := (hwrites rfl).trans
    (show written {} _ _ = .ok "Hi 3!".toList by decide +kernel)
  exact ⟨hrendered, hsame.symm.trans hrendered⟩

end ViewContract.Template
