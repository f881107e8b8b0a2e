/-
ViewContract.Proofs.Template.Page — text, outputs of names and guards, one after another.

A page is what a plain template is compiled to: characters at which no tag begins, outputs that
hold nothing but a name, and the guards of annotations. Pages are closed under putting one
behind another, so they can be followed part by part:

  §1 the items and the parts of a page.
  §2 the nodes of a page, and the tokens that mean them.
  §3 the scan of a page (`means_scanFrom`).
  §4 the reading of its nodes (`nodesOf_page`), and templates of guards alone (`nodesOf_guards`).
  §5 the end of a page, where one line feed is dropped.

The characters between two tags come out as one text, so the nodes of the rest of a page depend
on what has been read before it. The lemmas carry that text along, the last character first, as
the scan does.
-/
import ViewContract.Proofs.Guard.Nodes

namespace ViewContract.Template

open ViewContract.Text

/-! ## 1. Items and parts -/

/-- What a plain template is made of: characters, and outputs of names. -/
inductive Item where
  | char (c : Char)
  | output (name : Text)
  deriving DecidableEq, Repr

/-- An item as template text. -/
def Item.source (δ : Delimiters) : Item → Text
  | .char c => [c]
  | .output name => δ.output name

/-- A name that can be written out: any but `not`, which would go on. -/
def isOutputName (name : Text) : Bool :=
  !name.isEmpty && name.all isNamePart && !name.head?.any isDecimalDigit && name ≠ "not".toList

/-- An item is read as it is written: no tag begins at a character, and an output does not end
at its name. -/
def Item.Plain (env : Environment) : Item → Prop
  | .char c => c ≠ '\r' ∧ ∀ before rest, opening? env before (c :: rest) = none
  | .output name => isOutputName name = true ∧ name.head? ≠ env.delimiters.variableEnd.head?

/-- A part of a page. -/
inductive Part where
  | item (i : Item)
  | guards (gs : List Guard)

/-- The items among some parts. -/
def itemsOf : List Part → List Item
  | [] => []
  | .item i :: ps => i :: itemsOf ps
  | .guards _ :: ps => itemsOf ps

@[simp] theorem itemsOf_append (ps qs : List Part) :
    itemsOf (ps ++ qs) = itemsOf ps ++ itemsOf qs := by
  induction ps with
  | nil => rfl
  | cons p ps ih => cases p <;> simp [itemsOf, ih]

@[simp] theorem itemsOf_map_item (is : List Item) : itemsOf (is.map Part.item) = is := by
  induction is with
  | nil => rfl
  | cons i is ih => simp [itemsOf, ih]

/-- A text that is made of some parts. -/
inductive Page (env : Environment) : List Part → Text → Prop where
  | nil : Page env [] []
  | item {i : Item} {ps : List Part} {t : Text} (hi : i.Plain env) (h : Page env ps t) :
      Page env (.item i :: ps) (i.source env.delimiters ++ t)
  | guards {gs : List Guard} {code : Text} {ps : List Part} {t : Text}
      (hgs : ∀ g ∈ gs, g.Writable)
      (hcode : Guard.statementsAfter env.delimiters 0 gs = .ok code) (h : Page env ps t) :
      Page env (.guards gs :: ps) (code ++ t)

variable {env : Environment} {ps qs : List Part} {t u : Text}

theorem Page.append (h : Page env ps t) (h' : Page env qs u) : Page env (ps ++ qs) (t ++ u) := by
  induction h with
  | nil => exact h'
  | item hi _ ih =>
    rw [List.append_assoc]
    exact .item hi ih
  | guards hgs hcode _ ih =>
    rw [List.append_assoc]
    exact .guards hgs hcode ih

theorem page_items {is : List Item} (h : ∀ i ∈ is, i.Plain env) :
    Page env (is.map Part.item) (is.flatMap (Item.source env.delimiters)) := by
  induction is with
  | nil => exact .nil
  | cons i is ih =>
    exact .item (h i List.mem_cons_self) (ih fun j hj => h j (List.mem_cons_of_mem i hj))

theorem page_guards {gs : List Guard} (hgs : ∀ g ∈ gs, g.Writable) {code : Text}
    (hcode : Guard.statementsAfter env.delimiters 0 gs = .ok code) :
    Page env [.guards gs] code := by
  have h := Page.guards hgs hcode .nil
  rwa [List.append_nil] at h

/-! ## 2. Nodes and the tokens that mean them -/

/-- The output of a name as a tag. -/
def outputTag (name : Text) : Tag :=
  ⟨.output, false, [.word name]⟩

/-- The text before a tag as a node, if there is any. -/
def textNodes (read : Text) : List Node :=
  if read.isEmpty then [] else [.text read.reverse]

/-- The nodes of some parts, where `read` is the text before them. -/
def nodesAfter : Text → List Part → List Node
  | read, [] => textNodes read
  | read, .item (.char c) :: ps => nodesAfter (c :: read) ps
  | read, .item (.output name) :: ps =>
    textNodes read ++ .output (wordExpr name) :: nodesAfter [] ps
  | read, .guards [] :: ps => nodesAfter read ps
  | read, .guards (g :: gs) :: ps =>
    textNodes read ++ ((g :: gs).map Guard.node ++ nodesAfter [] ps)

/-- Tokens that mean some nodes, on whatever lines. -/
inductive Means (δ : Delimiters) : List Node → List Token → Prop where
  | nil : Means δ [] []
  | text {nodes : List Node} {tokens : List Token} (line : Nat) (t : Text)
      (h : Means δ nodes tokens) : Means δ (.text t :: nodes) (⟨line, .data, t⟩ :: tokens)
  | output {name : Text} {nodes : List Node} {tokens : List Token} (line : Nat)
      (hname : name ≠ "not".toList) (h : Means δ nodes tokens) :
      Means δ (.output (wordExpr name) :: nodes) ((outputTag name).meant δ line ++ tokens)
  | guard {g : Guard} {nodes : List Node} {tokens : List Token} (trim : Bool) (line : Nat)
      (hg : g.Writable) (h : Means δ nodes tokens) :
      Means δ (g.node :: nodes) ((g.tags trim).flatMap (Tag.meant δ line) ++ tokens)

section meanings

variable {δ : Delimiters} {nodes : List Node} {tokens : List Token}

theorem Means.data (h : Means δ nodes tokens) (line : Nat) (read : Text) :
    Means δ (textNodes read ++ nodes) ([⟨line, .data, read.reverse⟩].filter isRead ++ tokens) := by
  cases read with
  | nil => exact h
  | cons c read =>
    have hread : isRead ⟨line, .data, (c :: read).reverse⟩ = true := by
      simp [isRead, isMeaningful, isKept]
    rw [List.filter_cons_of_pos hread]
    exact .text line _ h

/-- Guards without text before them mean what each of them means. -/
theorem Means.guards {gs : List Guard} (hgs : ∀ g ∈ gs, g.Writable) (line count : Nat)
    (h : Means δ nodes tokens) : Means δ (gs.map Guard.node ++ nodes)
      ((guardTokens δ line count [] gs).filter isRead ++ tokens) := by
  induction gs generalizing line count with
  | nil => exact h
  | cons g gs ih =>
    have hg := hgs g List.mem_cons_self
    rw [guardTokens, List.filter_append, filter_statementTokens hg, List.append_assoc]
    exact .guard _ _ hg (ih (fun g' hg' => hgs g' (List.mem_cons_of_mem g hg')) _ _)

/-- Guards behind some text add a token for it, and nothing else changes. -/
theorem filter_guardTokens (δ : Delimiters) (line : Nat) (read : Text) (g : Guard)
    (gs : List Guard) : (guardTokens δ line 0 read (g :: gs)).filter isRead
      = [⟨line, .data, read.reverse⟩].filter isRead ++
        (guardTokens δ (line + lineFeeds read) 0 [] (g :: gs)).filter isRead := by
  have hnone : ¬ isRead ⟨line + lineFeeds read, .data, []⟩ = true := by
    simp [isRead, isKept]
  have hcut : ∀ (line : Nat) (read : Text), guardTokens δ line 0 read (g :: gs)
      = [⟨line, .data, read.reverse⟩] ++
        (guardTokens δ line 0 read (g :: gs)).tail := fun _ _ => rfl
  have htail : (guardTokens δ line 0 read (g :: gs)).tail
      = (guardTokens δ (line + lineFeeds read) 0 [] (g :: gs)).tail := rfl
  rw [hcut line read, hcut _ [], List.filter_append, List.filter_append, htail]
  rw [List.reverse_nil, List.filter_cons_of_neg hnone]
  rfl

/-- The output of a name behind some text adds a token for it. -/
theorem filter_outputTokens (δ : Delimiters) (line : Nat) (read name : Text) :
    ((outputTag name).tokensAfter δ line read).filter isRead
      = [⟨line, .data, read.reverse⟩].filter isRead ++
        (outputTag name).meant δ (line + lineFeeds read) := by
  have hwritten : ∀ c ∈ (outputTag name).chunks, c.kind.IsWritten := by
    intro c hc
    rw [List.mem_singleton.mp hc]
    exact .inl rfl
  rw [← filter_tokens hwritten, ← List.filter_append]
  rfl

end meanings

/-! ## 3. The scan of a page -/

theorem exists_of_isOutputName {name : Text} (h : isOutputName name = true) :
    ∃ c w, name = c :: w ∧ (∀ d ∈ c :: w, isNamePart d = true) ∧ isDecimalDigit c = false ∧
      name ≠ "not".toList := by
  cases name with
  | nil => exact nomatch h
  | cons c w =>
    simp only [isOutputName, Bool.and_eq_true, List.all_eq_true, Bool.not_eq_true',
      List.head?_cons, Option.any_some, decide_eq_true_eq] at h
    exact ⟨c, w, rfl, h.1.1.2, h.1.2, h.2⟩

theorem filter_after (s : Scan) (tokens : List Token) :
    (s.after tokens).tokens.filter isMeaningful
      = tokens.filter isRead ++ s.tokens.filter isMeaningful := by
  rw [after_eq, List.filter_append, List.filter_filter]
  rfl

section scans

variable (henv : env.Regular)

include henv

/-- A name does not begin like the end of an output. -/
theorem tagEnd?_of_isNamePart {c : Char} (hc : isNamePart c = true)
    (hend : some c ≠ env.delimiters.variableEnd.head?) (t : Text) :
    tagEnd? env .output (c :: t) = none := by
  obtain ⟨m, mark, hmark, _⟩ := henv.ends .output
  have hmark' : env.delimiters.variableEnd = m :: mark := hmark
  have hne : m ≠ c := by
    rintro rfl
    exact hend (by rw [hmark']; rfl)
  have hminus : c ≠ '-' := by
    rintro rfl
    exact absurd hc (by decide)
  rw [tagEnd?, hmark', plainEndLength?_eq_none hne fun h => absurd h hminus]
  rfl

/-- The scan gets over the name in an output, up to the blank behind it. -/
theorem passes_name {before : Option Char} {c : Char} {w rest : Text} {line : Nat}
    (hparts : ∀ d ∈ c :: w, isNamePart d = true) (hdigit : isDecimalDigit c = false)
    (hend : some c ≠ env.delimiters.variableEnd.head?) :
    Passes env before (' ' :: rest) line (.tag .output []) (c :: w) [⟨line, .name, c :: w⟩] line
      (.tag .output []) := by
  have hfeeds : lineFeeds (c :: w) = 0 := lineFeeds_of_not_mem fun hmem =>
    absurd (hparts _ hmem) (by decide)
  have hpass : Passes env before (' ' :: rest) line (.tag .output []) (c :: w)
      [⟨line, .name, c :: w⟩] (line + lineFeeds (c :: w)) (.tag .output []) :=
    passes_lexeme nofun
      (fun _ => tagEnd?_of_isNamePart henv (hparts c List.mem_cons_self) hend _)
      (lexeme?_run hparts hdigit (show isNamePart ' ' = false by decide)) rfl
  rwa [hfeeds] at hpass

/-- The scan gets over the output of a name. -/
theorem passes_output {before : Option Char} {rest : Text} {line : Nat} {read name : Text}
    (hname : (Item.output name).Plain env) :
    Passes env before rest line (.text read) (env.delimiters.output name)
      ((outputTag name).tokensAfter env.delimiters line read) (line + lineFeeds read)
      (.text []) := by
  obtain ⟨c, w, rfl, hparts, hdigit, _⟩ := exists_of_isOutputName hname.1
  have hkind : TagKind.output ≠ .line := nofun
  have hstart :
      Passes env before (' ' :: (c :: w ++ ' ' :: env.delimiters.variableEnd) ++ rest) line
      (.text read) (env.delimiters.variableStart ++ signText false)
      [⟨line, .data, keptText read (signOf false)⟩, ⟨line + lineFeeds read, .outputBegin,
        env.delimiters.variableStart ++ signText false⟩]
      (line + lineFeeds read) (.tag .output []) := by
    refine passes_mark henv hkind ?_
    rw [List.append_assoc]
    exact opening?_of_rawBegin? henv .output (rawBegin?_output henv false _)
  have hspace : ∀ before rest, Passes env before (c :: rest) (line + lineFeeds read)
      (.tag .output []) [' '] [⟨line + lineFeeds read, .blank, [' ']⟩] (line + lineFeeds read)
      (.tag .output []) := fun _ _ =>
    passes_blank henv hkind (not_blank_of_isNamePart (hparts c List.mem_cons_self))
  have hword : ∀ before, Passes env before (' ' :: env.delimiters.variableEnd ++ rest)
      (line + lineFeeds read) (.tag .output []) (c :: w)
      [⟨line + lineFeeds read, .name, c :: w⟩] (line + lineFeeds read) (.tag .output []) :=
    fun _ => passes_name henv hparts hdigit hname.2
  have hstop : ∀ before, Passes env before rest (line + lineFeeds read) (.tag .output [])
      (' ' :: env.delimiters.variableEnd) _ (line + lineFeeds read) (.text []) :=
    fun _ => passes_stop henv hkind
  have hsource : env.delimiters.output (c :: w) = env.delimiters.variableStart ++ signText false ++
      ([' '] ++ (c :: w) ++ ' ' :: env.delimiters.variableEnd) := by
    simp [Delimiters.output, signText]
  rw [hsource]
  exact hstart.trans (((hspace _ _).trans (hword _)).trans (hstop _))

/-- The scan of a page has no fault, and its tokens mean the nodes of the page. -/
theorem means_scanFrom (h : Page env ps t) (before : Option Char) (line position : Nat)
    (read : Text) :
    (scanFrom env before line position 0 (.text read) t).fault = none ∧
      Means env.delimiters (nodesAfter read ps)
        ((scanFrom env before line position 0 (.text read) t).tokens.filter isMeaningful) := by
  induction h generalizing before line position read with
  | nil =>
    refine ⟨rfl, ?_⟩
    have hmeans : Means env.delimiters (textNodes read ++ [])
        ([⟨line, .data, read.reverse⟩].filter isRead ++ []) := Means.data .nil line read
    rw [List.append_nil] at hmeans
    rw [scanFrom, atEnd, filter_after]
    exact hmeans
  | @item i ps t hi _ ih =>
    cases i with
    | char c =>
      have hpass : Passes env before t line (.text read) [c] [] line (.text (c :: read)) :=
        passes_text (hi.2 before t)
      rw [Item.source, hpass position, after_nil]
      exact ih _ _ _ _
    | output name =>
      obtain ⟨_, _, _, _, _, hnot⟩ := exists_of_isOutputName hi.1
      have hpass : Passes env before t line (.text read) (env.delimiters.output name) _ _ _ :=
        passes_output henv hi
      rw [Item.source, hpass position, filter_after, filter_outputTokens, List.append_assoc]
      obtain ⟨hfault, hmeans⟩ := ih ((env.delimiters.output name).getLast?.or before)
        (line + lineFeeds read) (position + (env.delimiters.output name).length) []
      exact ⟨hfault, (hmeans.output _ hnot).data line read⟩
  | @guards gs code ps t hgs hcode _ ih =>
    obtain ⟨line', hpass⟩ : ∃ line', Passes env before t line (.text read) code _ line' _ :=
      passes_guards henv hgs hcode before
    rw [hpass position]
    cases gs with
    | nil =>
      rw [guardTokens, after_nil]
      exact ih _ _ _ _
    | cons g gs =>
      obtain ⟨hfault, hmeans⟩ := ih (code.getLast?.or before) line' (position + code.length) []
      rw [filter_after, filter_guardTokens, List.append_assoc]
      exact ⟨hfault, (hmeans.guards hgs _ _).data line read⟩

end scans

/-! ## 4. The reading of a page -/

section readings

variable {δ : Delimiters} {nodes : List Node} {tokens rest : List Token} {fuel line : Nat}

/-- A word that is written out is the whole expression. -/
theorem readExpr_word {word : Text} (hnot : word ≠ "not".toList) (hrest : Stops rest) :
    readExpr (⟨line, .name, word⟩ :: rest) = some (wordExpr word, rest) := by
  have hstart : startsWith .name "not" (⟨line, .name, word⟩ :: rest) = false := by
    simp only [startsWith, Bool.and_eq_false_iff, decide_eq_false_iff_not]
    exact .inr hnot
  refine readExpr_of_fuel 4 (fun fuel => ?_) (by omega)
  exact readOr_signed fuel (readSigned_word word hrest.parenthesis) hrest hstart

theorem readNodes_output {name : Text} (hnot : name ≠ "not".toList)
    (h : readNodes fuel tokens = some (nodes, rest)) :
    readNodes (fuel + 1) ((outputTag name).meant δ line ++ tokens)
      = some (.output (wordExpr name) :: nodes, rest) := by
  have hexpr : readExpr (⟨line, .name, name⟩ ::
      ⟨line, TagKind.endToken .output, TagKind.endMark δ .output⟩ :: tokens) = _ :=
    readExpr_word hnot (stops_endToken line tokens .output _)
  have hkind : expectKind .outputEnd (⟨line, TagKind.endToken .output,
      TagKind.endMark δ .output⟩ :: tokens) = some tokens := rfl
  have hcut : (outputTag name).meant δ line ++ tokens
      = ⟨line, .outputBegin, δ.variableStart ++ signText false⟩ :: ⟨line, .name, name⟩ ::
          ⟨line, TagKind.endToken .output, TagKind.endMark δ .output⟩ :: tokens := rfl
  rw [hcut]
  simp only [readNodes, hexpr, Option.bind_eq_bind, Option.bind_some, hkind, h]
  rfl

/-- The nodes that tokens mean are read back. -/
theorem readNodes_means (h : Means δ nodes tokens) (hfuel : tokens.length ≤ fuel) :
    readNodes fuel tokens = some (nodes, []) := by
  induction h generalizing fuel with
  | nil => rw [readNodes]
  | @text nodes tokens line t _ ih =>
    obtain ⟨fuel, rfl⟩ : ∃ k, fuel = k + 1 :=
      Nat.exists_eq_add_of_le' (by rw [List.length_cons] at hfuel; omega)
    have hrest := ih (Nat.le_of_succ_le_succ hfuel)
    simp only [readNodes, hrest]
    rfl
  | @output name nodes tokens line hnot _ ih =>
    have hlength : ((outputTag name).meant δ line).length = 3 := rfl
    rw [List.length_append, hlength] at hfuel
    obtain ⟨fuel, rfl⟩ : ∃ k, fuel = k + 1 := Nat.exists_eq_add_of_le' (by omega)
    exact readNodes_output hnot (ih (by omega))
  | @guard g nodes tokens trim line hg _ ih =>
    have hlength : 3 ≤ ((g.tags trim).flatMap (Tag.meant δ line)).length := by
      simp [Guard.tags, Tag.meant]
      omega
    rw [List.length_append] at hfuel
    obtain ⟨fuel, rfl⟩ : ∃ k, fuel = k + 3 := Nat.exists_eq_add_of_le' (by omega)
    exact readNodes_guard hg δ trim (ih (by omega))

end readings

/-- A template that is prepared to a page has the nodes of the page. -/
theorem nodesOf_page (henv : env.Regular) {source : Text}
    (h : Page env ps (prepare source)) : nodesOf env source = .ok (nodesAfter [] ps) := by
  obtain ⟨hfault, hmeans⟩ := means_scanFrom henv h none 1 0 []
  have hnodes : Node.ofTokens? (scan env source).tokens = some (nodesAfter [] ps) := by
    rw [Node.ofTokens?, scan, readNodes_means hmeans (by omega)]
    rfl
  have hscan : (scan env source).fault = none := hfault
  rw [nodesOf, hscan, hnodes]

/-- A template of guards has their nodes. -/
theorem nodesOf_guards (henv : env.Regular) {gs : List Guard} (hgs : ∀ g ∈ gs, g.Writable)
    (h : Guard.statementsAfter env.delimiters 0 gs = .ok t) :
    nodesOf env t = .ok (gs.map Guard.node) := by
  obtain ⟨hreturn, hlast⟩ := plain_statements henv hgs h
  have hpage : Page env [.guards gs] (prepare t) := by
    rw [prepare_eq_self hreturn hlast]
    exact page_guards hgs h
  rw [nodesOf_page henv hpage]
  cases gs with
  | nil => rfl
  | cons g gs => simp [nodesAfter, textNodes]

/-! ## 5. The end of a page -/

/-- Items without the line feed at their end. -/
def withoutFinalFeed (is : List Item) : List Item :=
  if is.getLast? = some (.char '\n') then is.dropLast else is

theorem withoutFinalFeed_append (is : List Item) (i : Item) :
    withoutFinalFeed (is ++ [i]) = is ++ if i = .char '\n' then [] else [i] := by
  rw [withoutFinalFeed, List.getLast?_append_of_ne_nil _ (List.cons_ne_nil i [])]
  by_cases h : i = .char '\n' <;> simp [h]

/-- A page that ends with an item is cut before it. -/
theorem Page.exists_of_append {i : Item} (h : Page env (ps ++ [.item i]) t) :
    ∃ u, t = u ++ i.source env.delimiters ∧ Page env ps u ∧ i.Plain env := by
  induction ps generalizing t with
  | nil =>
    cases h with
    | item hi h =>
      cases h
      exact ⟨[], List.append_nil _, .nil, hi⟩
  | cons p ps ih =>
    cases h with
    | item hj h =>
      obtain ⟨u, rfl, hu, hi⟩ := ih h
      exact ⟨_, (List.append_assoc _ _ _).symm, .item hj hu, hi⟩
    | guards hgs hcode h =>
      obtain ⟨u, rfl, hu, hi⟩ := ih h
      exact ⟨_, (List.append_assoc _ _ _).symm, .guards hgs hcode hu, hi⟩

section ends

variable (henv : env.Regular)

include henv

theorem oneLine_output {name : Text} (hname : isOutputName name = true) :
    ∀ c ∈ env.delimiters.output name, c ≠ '\n' ∧ c ≠ '\r' := by
  obtain ⟨_, _, hcut, hparts, _⟩ := exists_of_isOutputName hname
  rw [← hcut] at hparts
  intro c hc
  rw [Delimiters.output, List.mem_append, List.mem_append, List.mem_cons, List.mem_cons] at hc
  rcases hc with (hc | rfl | hc) | rfl | hc
  · exact henv.oneLine .output c (List.mem_append_left _ hc)
  · decide
  · constructor <;> rintro rfl <;> exact absurd (hparts _ hc) (by decide)
  · decide
  · exact henv.oneLine .output c (List.mem_append_right _ hc)

theorem Page.no_return (h : Page env ps t) : '\r' ∉ t := by
  induction h with
  | nil => exact List.not_mem_nil
  | @item i _ _ hi _ ih =>
    rw [List.mem_append, not_or]
    refine ⟨?_, ih⟩
    cases i with
    | char c => exact fun h => hi.1 (List.mem_singleton.mp h).symm
    | output name => exact fun h => (oneLine_output henv hi.1 _ h).2 rfl
  | guards hgs hcode _ ih =>
    rw [List.mem_append, not_or]
    exact ⟨(plain_statements henv hgs hcode).1, ih⟩

/-- A page that does not end with guards is prepared to a page of the same parts, but for a line
feed at the end. -/
theorem Page.exists_prepare (h : Page env ps t)
    (hlast : ps = [] ∨ ∃ qs i, ps = qs ++ [.item i]) :
    ∃ qs, Page env qs (prepare t) ∧ itemsOf qs = withoutFinalFeed (itemsOf ps) ∧
      ∀ p ∈ qs, p ∈ ps := by
  rcases hlast with rfl | ⟨qs, i, rfl⟩
  · cases h
    exact ⟨[], .nil, rfl, fun _ hp => hp⟩
  · have hreturn := h.no_return henv
    obtain ⟨u, rfl, hu, hi⟩ := h.exists_of_append
    rw [itemsOf_append, show itemsOf [.item i] = [i] from rfl, withoutFinalFeed_append]
    by_cases hfeed : i = .char '\n'
    · subst hfeed
      rw [Item.source, prepare_lineFeed (hu.no_return henv)]
      exact ⟨qs, hu, by simp, fun p hp => List.mem_append_left _ hp⟩
    · have hend : (u ++ i.source env.delimiters).getLast? ≠ some '\n' := by
        cases i with
        | char c =>
          rw [Item.source, List.getLast?_concat]
          rintro ⟨⟩
          exact hfeed rfl
        | output name =>
          have hne : env.delimiters.output name ≠ [] := by simp [Delimiters.output]
          rw [Item.source, List.getLast?_append_of_ne_nil u hne]
          exact fun h => (oneLine_output henv hi.1 _ (List.mem_of_getLast? h)).1 rfl
      rw [prepare_eq_self hreturn hend, if_neg hfeed]
      exact ⟨qs ++ [.item i], h, by simp [itemsOf], fun p hp => hp⟩

end ends

end ViewContract.Template
