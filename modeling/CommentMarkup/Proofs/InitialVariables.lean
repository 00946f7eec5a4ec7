/-
# Variables from the outside

A variable can be given its value from the outside or by a definition at the top of the text, and
that makes no difference (`source_of_definitions`).  The definitions may stand in any order, since
nothing but the value of each name is ever taken from the variables (`document_of_agree`).  They
leave nothing, and the text behind them is scanned as it is by itself (`scanFrom_definitions`); but
it must not begin with a blank block, which the last definition would take along.

If the text fails, it does so at the same directive behind the definitions.  The place of that
directive in the text is another one then; everything that is said about included documents is the
same.
-/
import CommentMarkup.Proofs.DefinitionLine
import CommentMarkup.Proofs.Influence
import CommentMarkup.Proofs.WrittenDirective

namespace CommentMarkup

/-! ### Variables in another order -/

/-- Where each name stands once, its value does not depend on the order. -/
lemma lookup_of_perm {l₁ l₂ : List (Text × Text)} (h : l₁.Perm l₂)
    (hnames : (l₁.map Prod.fst).Nodup) (name : Text) : l₁.lookup name = l₂.lookup name := by
  induction h with
  | nil => rfl
  | cons e _ ih =>
    rw [List.map_cons, List.nodup_cons] at hnames
    rw [List.lookup_cons, List.lookup_cons, ih hnames.2]
  | swap e₁ e₂ rest =>
    obtain ⟨n₁, v₁⟩ := e₁
    obtain ⟨n₂, v₂⟩ := e₂
    have hne : n₁ ≠ n₂ := by
      rintro rfl
      simp at hnames
    by_cases h₁ : name = n₁
    · simp [List.lookup_cons, h₁, beq_eq_false_iff_ne.2 hne]
    · simp [List.lookup_cons, beq_eq_false_iff_ne.2 h₁]
  | trans h₁ _ ih₁ ih₂ => exact (ih₁ hnames).trans (ih₂ ((h₁.map Prod.fst).nodup hnames))

namespace Scope

variable {s : Scope} {nilSentinel : Text} {initial defs : List (Text × Text)}

/-- Values other than the nil sentinel are given by definitions as they are. -/
lemma ofList_eq_defineAll (h : ∀ e ∈ initial, e.2 ≠ nilSentinel) :
    ofList initial = empty.defineAll nilSentinel initial := by
  induction initial using List.reverseRecOn with
  | nil => rfl
  | append_singleton earlier e ih =>
    have hlast : e.2 ≠ nilSentinel := h e (by simp)
    have hput : ofList (earlier ++ [e]) = (ofList earlier).put e.1 e.2 := by
      rw [ofList, List.foldl_append]
      rfl
    rw [hput, ih fun e he => h e (List.mem_append_left _ he), defineAll_append]
    simp only [defineAll, List.foldl_cons, List.foldl_nil, define, if_neg hlast]

/-- The same definitions in another order. -/
lemma agree_defineAll_of_perm (h : defs.Perm initial) (hnames : (initial.map Prod.fst).Nodup) :
    (s.defineAll nilSentinel initial).Agree (s.defineAll nilSentinel defs) := by
  intro name
  have hperm : initial.reverse.Perm defs.reverse :=
    (initial.reverse_perm.trans h.symm).trans defs.reverse_perm.symm
  have hreverse : (initial.reverse.map Prod.fst).Nodup := by
    rwa [List.map_reverse, List.nodup_reverse]
  rw [find?_defineAll, find?_defineAll, seen?, seen?, lastValue?, lastValue?,
    lookup_of_perm hperm hreverse]

end Scope

/-! ### Definitions one behind the other -/

/-- A variable that can be given its value by a definition. -/
structure IsDefinable (nilSentinel : Text) (e : Text × Text) : Prop where
  /-- No character of its name ends the name of a definition. -/
  name : ∀ c ∈ e.1, Directive.endsName c = false
  /-- Its value is not empty. -/
  value_ne_nil : e.2 ≠ []
  /-- There are no blanks around its value. -/
  trimmed : Text.trim e.2 = e.2
  /-- Its value does not stand for the empty text. -/
  ne_nilSentinel : e.2 ≠ nilSentinel
  /-- Its definition does not close a comment. -/
  unclosed : ¬ commentClosing <:+: e.1 ++ " = ".toList ++ e.2

/-- The text of some definitions. -/
def definitionsText (defs : List (Text × Text)) : Text :=
  defs.flatMap fun e => definitionComment e.1 e.2

/-- The blocks of some definitions. -/
def definitionBlocks : Nat → List (Text × Text) → List Block
  | _, [] => []
  | start, e :: rest =>
    let line := definitionComment e.1 e.2
    ⟨start, line⟩ :: definitionBlocks (start + line.length) rest

namespace Block

variable {nilSentinel : Text} {e : Text × Text} {defs : List (Text × Text)} {start : Nat}

lemma isWholeComment_definitionComment (h : IsDefinable nilSentinel e) :
    IsWholeComment (definitionComment e.1 e.2) := by
  rw [definitionComment, isWholeComment_comment_iff, definitionBody, List.infix_cons_iff, not_or]
  constructor
  · simp [commentClosing]
  · simpa using h.unclosed

/-- A text behind some definitions is scanned as it is by itself. -/
lemma scanFrom_definitions (h : ∀ e ∈ defs, IsDefinable nilSentinel e) (t : Text) :
    scanFrom start (definitionsText defs ++ t)
      = (scanFrom (start + (definitionsText defs).length) t).map
          (definitionBlocks start defs ++ ·) := by
  induction defs generalizing start with
  | nil =>
    have hsame : scanFrom start t = (scanFrom start t).map id := by
      cases scanFrom start t <;> rfl
    exact hsame
  | cons e rest ih =>
    have hwhole := isWholeComment_definitionComment (h e List.mem_cons_self)
    have hne : definitionComment e.1 e.2 ++ (definitionsText rest ++ t) ≠ [] := by
      simp [definitionComment, comment, commentOpening]
    have hsplit : definitionsText (e :: rest) = definitionComment e.1 e.2 ++ definitionsText rest :=
      List.flatMap_cons
    rw [hsplit, List.append_assoc, scanFrom_of_lexeme? hne (lexeme?_of_isWholeComment hwhole _),
      ih fun e he => h e (List.mem_cons_of_mem _ he), List.length_append, Nat.add_assoc]
    cases scanFrom _ t <;> rfl

lemma isDefinition_definitionComment (h : IsDefinable nilSentinel e) (start : Nat) :
    (Block.mk start (definitionComment e.1 e.2)).isDefinition = true :=
  isDefinition_of_directive (isSpecial_definitionComment start e.1 e.2)
    (directive_definitionComment h.name h.trimmed h.value_ne_nil)

lemma isDefinition_of_mem_definitionBlocks (h : ∀ e ∈ defs, IsDefinable nilSentinel e) {b : Block}
    (hb : b ∈ definitionBlocks start defs) : b.isDefinition = true := by
  induction defs generalizing start with
  | nil => simp [definitionBlocks] at hb
  | cons e rest ih =>
    rcases List.mem_cons.1 hb with rfl | hb
    · exact isDefinition_definitionComment (h e List.mem_cons_self) start
    · exact ih (fun e he => h e (List.mem_cons_of_mem _ he)) hb

lemma definitions_definitionBlocks (h : ∀ e ∈ defs, IsDefinable nilSentinel e) :
    definitions (definitionBlocks start defs) = defs := by
  induction defs generalizing start with
  | nil => rfl
  | cons e rest ih =>
    have he := h e List.mem_cons_self
    have hfirst : (Block.mk start (definitionComment e.1 e.2)).definition? = some e := by
      rw [definition?_of_isSpecial (isSpecial_definitionComment start e.1 e.2),
        directive_definitionComment he.name he.trimmed he.value_ne_nil]
      rfl
    rw [definitionBlocks, definitions, List.filterMap_cons_some hfirst]
    exact congrArg (e :: ·) (ih fun e he => h e (List.mem_cons_of_mem _ he))

end Block

namespace Compile

variable {ctx : Context} {nested : Document → Scope → Run Text} {d : Document} {scope : Scope}
  {nilSentinel : Text} {defs : List (Text × Text)} {bs : List Block}

/-- Blocks that are definitions leave nothing. -/
lemma silent_of_isDefinition (h : ∀ b ∈ bs, b.isDefinition = true) (previous : Option Block) :
    Silent previous bs := by
  induction bs generalizing previous with
  | nil => exact .nil _
  | cons b rest ih =>
    exact .definition (h b List.mem_cons_self)
      (ih (fun b hb => h b (List.mem_cons_of_mem _ hb)) _)

lemma scan_definitionsText (h : ∀ e ∈ defs, IsDefinable nilSentinel e) :
    Block.scan (definitionsText defs) = .ok (definitionBlocks 0 defs) := by
  have hscan : Block.scanFrom 0 (definitionsText defs ++ []) = _ := Block.scanFrom_definitions h []
  rw [List.append_nil, Block.scanFrom_nil] at hscan
  rw [Block.scan, hscan]
  exact congrArg Except.ok (List.append_nil _)

/-- A document of definitions leaves nothing but their variables. -/
lemma documentWith_definitionsText (h : ∀ e ∈ defs, IsDefinable nilSentinel e) :
    (documentWith ctx nested { d with text := definitionsText defs } scope).outcome = .ok [] ∧
      (documentWith ctx nested { d with text := definitionsText defs } scope).scope
        = scope.defineAll ctx.settings.nilSentinel defs := by
  have hsilent : Silent none (definitionBlocks 0 defs) :=
    silent_of_isDefinition (fun _ hb => Block.isDefinition_of_mem_definitionBlocks h hb) none
  obtain ⟨events, hreach⟩ : ∃ events, Reaches ctx nested { d with text := definitionsText defs }
      ⟨none, definitionBlocks 0 defs ++ [], scope⟩ [] events _ := hsilent.reaches [] scope
  rw [List.append_nil, Block.definitions_definitionBlocks h] at hreach
  have hscan : Block.scan ({ d with text := definitionsText defs } : Document).text
      = .ok (definitionBlocks 0 defs) := scan_definitionsText h
  rw [(documentWith_of_scan_ok hscan).1, (documentWith_of_scan_ok hscan).2, hreach.compile_eq]
  exact ⟨rfl, rfl⟩

/-- Definitions stand apart from a text that does not begin with a blank block. -/
lemma apart_definitionBlocks (h : ∀ e ∈ defs, IsDefinable nilSentinel e)
    (hfirst : ∀ first ∈ bs.head?, Text.allBlank first.data = false) :
    Apart (definitionBlocks 0 defs) bs := by
  intro last hlast first hmem
  have hdefinition := Block.isDefinition_of_mem_definitionBlocks h (List.mem_of_getLast? hlast)
  have hblank := Block.not_allBlank_of_isSpecial (Block.isSpecial_of_isDefinition hdefinition)
  simp [hblank, hfirst first hmem]

/-- A text that fails behind some definitions fails as it does by itself, from another place. -/
lemma documentWith_definitions_eq_error {t : Text} {f : Failure} {depth : Nat}
    (h : ∀ e ∈ defs, IsDefinable nilSentinel e)
    (hfirst : ∀ bs, Block.scan t = .ok bs → ∀ first ∈ bs.head?, Text.allBlank first.data = false)
    (hf : (documentWith ctx (nestedWithin ctx depth) { d with text := t }
      (scope.defineAll ctx.settings.nilSentinel defs)).outcome = .error f) :
    ∃ offset f', commentOpening <+: t.drop offset ∧
      (documentWith ctx (nestedWithin ctx depth) { d with text := definitionsText defs ++ t }
        scope).outcome = .error f' ∧
      Failure.Relocated (siteOf { d with text := t } offset)
        (siteOf { d with text := definitionsText defs ++ t }
          (offset + (definitionsText defs).length)) f f' := by
  have hwhole : Block.scan (definitionsText defs ++ t) = _ := Block.scanFrom_definitions h t
  rw [Nat.zero_add] at hwhole
  cases ht : Block.scan t with
  | error offset =>
    -- the comment that is not closed stands further back
    have hmoved := Block.scanFrom_add_of_error (n := (definitionsText defs).length) ht
    rw [Nat.zero_add] at hmoved
    rw [hmoved] at hwhole
    rw [documentWith_of_scan_error ht] at hf
    rw [documentWith_of_scan_error hwhole, ← Except.error.inj hf]
    exact ⟨offset, _, Block.opening_at_of_scan_error ht, rfl,
      .own (.unterminatedComment unterminatedMessage) none⟩
  | ok bs =>
    have hmoved := Block.scanFrom_add (n := (definitionsText defs).length) ht
    rw [Nat.zero_add] at hmoved
    rw [hmoved] at hwhole
    obtain ⟨hdefs, hscope⟩ : (documentWith ctx (nestedWithin ctx depth)
        { d with text := definitionsText defs } scope).outcome = .ok [] ∧ _ :=
      documentWith_definitionsText h
    rw [← hscope] at hf
    obtain ⟨b, scope', f₀, hb, hexec, hf₀, rfl, hf'⟩ := documentWith_append_of_error_behind
      (scan_definitionsText h) ht hwhole (apart_definitionBlocks h (hfirst bs ht)) hdefs hf
    exact ⟨b.start, _, Block.opening_at_of_mem_scan ht hb (Block.isComment_of_isSpecial hexec.1),
      hf', Failure.relocated_leaving _ _ (isFresh_or_isLocated_of_executes hexec hf₀)⟩

/-- A text that succeeds behind some definitions. -/
lemma documentWith_definitions_of_ok {t text : Text}
    (h : ∀ e ∈ defs, IsDefinable nilSentinel e)
    (hfirst : ∀ bs, Block.scan t = .ok bs → ∀ first ∈ bs.head?, Text.allBlank first.data = false)
    (ht : (documentWith ctx nested { d with text := t }
      (scope.defineAll ctx.settings.nilSentinel defs)).outcome = .ok text) :
    (documentWith ctx nested { d with text := definitionsText defs ++ t } scope).outcome
      = .ok text := by
  cases hscan : Block.scan t with
  | error offset =>
    rw [documentWith_of_scan_error hscan] at ht
    simp at ht
  | ok bs =>
    have hwhole : Block.scan (definitionsText defs ++ t) = _ := Block.scanFrom_definitions h t
    have hmoved := Block.scanFrom_add (n := (definitionsText defs).length) hscan
    rw [hmoved] at hwhole
    obtain ⟨hdefs, hscope⟩ : (documentWith ctx nested
        { d with text := definitionsText defs } scope).outcome = .ok [] ∧ _ :=
      documentWith_definitionsText h
    rw [← hscope] at ht
    exact documentWith_append_of_ok (scan_definitionsText h) hscan hwhole
      (apart_definitionBlocks h (hfirst bs hscan)) hdefs ht

/-- Initial variables are definitions at the top of the text.

Let the definitions of some variables stand in any order before a text that does not begin with a
blank block.  They compile exactly if the text does with these variables from the outside, and to
the same.  If the text fails, so it does behind the definitions, at the same comment, and says the
same but for the place of this comment. -/
theorem source_of_definitions (ctx : Context) (options : Options)
    (initial defs : List (Text × Text)) (hnames : (initial.map Prod.fst).Nodup)
    (hinitial : ∀ e ∈ initial, IsDefinable ctx.settings.nilSentinel e)
    (hdefs : defs.Perm initial) (t : Text)
    (hfirst : ∀ bs, Block.scan t = .ok bs →
      ∀ first ∈ bs.head?, Text.allBlank first.data = false) :
    let defined := source ctx { options with initial := [] } (definitionsText defs ++ t)
    let given := source ctx { options with initial := initial } t
    (∀ text, defined.outcome = .ok text ↔ given.outcome = .ok text) ∧
      ∀ f, given.outcome = .error f → ∃ offset f', commentOpening <+: t.drop offset ∧
        defined.outcome = .error f' ∧
        Failure.Relocated (siteOf (options.document t) offset)
          (siteOf (options.document (definitionsText defs ++ t))
            (offset + (definitionsText defs).length)) f f' := by
  intro defined given
  have h : ∀ e ∈ defs, IsDefinable ctx.settings.nilSentinel e := fun e he =>
    hinitial e (hdefs.mem_iff.1 he)
  have hagree : (Scope.ofList initial).Agree
      (Scope.empty.defineAll ctx.settings.nilSentinel defs) := by
    rw [Scope.ofList_eq_defineAll fun e he => (hinitial e he).ne_nilSentinel]
    exact Scope.agree_defineAll_of_perm hdefs hnames
  have hgiven : given.outcome = (document ctx (options.document t)
      (Scope.empty.defineAll ctx.settings.nilSentinel defs)).outcome :=
    (document_of_agree ctx (options.document t) hagree).1.symm
  have herror : ∀ f, given.outcome = .error f → ∃ offset f', commentOpening <+: t.drop offset ∧
      defined.outcome = .error f' ∧ Failure.Relocated (siteOf (options.document t) offset)
        (siteOf (options.document (definitionsText defs ++ t))
          (offset + (definitionsText defs).length)) f f' := by
    intro f hf
    rw [hgiven] at hf
    exact documentWith_definitions_eq_error (d := options.document t) h hfirst hf
  refine ⟨fun text => ⟨fun hdefined => ?_, fun htext => ?_⟩, herror⟩
  · cases htext : given.outcome with
    | error f =>
      obtain ⟨-, f', -, hf', -⟩ := herror f htext
      rw [hf'] at hdefined
      simp at hdefined
    | ok text' =>
      have hsame : defined.outcome = .ok text' :=
        documentWith_definitions_of_ok (d := options.document t) h hfirst (hgiven ▸ htext)
      rw [hsame] at hdefined
      rw [Except.ok.inj hdefined]
  · exact documentWith_definitions_of_ok (d := options.document t) h hfirst (hgiven ▸ htext)

/-- Two variables, of which an included template uses one and redefines the other; and a text that
fails in that template if the second one is missing. -/
theorem source_of_definitions_of_include :
    let m : MemoryStore :=
      ⟨[("/site/b.kit".toList, Encoding.utf8Bytes "<!--$n--><!--$m=x--><!--$k-->".toList)], []⟩
    let ctx : Context := ⟨m.toStore, {}, "/site".toList, Codec.builtIn⟩
    let options : Options :=
      { initial := [], file := "/site/a.kit".toList, rootDir := "/site".toList, parents := [] }
    let initial : List (Text × Text) :=
      [("n".toList, "1".toList), ("m".toList, "2 -".toList)]
    let defs : List (Text × Text) :=
      [("m".toList, "2 -".toList), ("n".toList, "1".toList)]
    let good : Text := "<!--$k=3--><!--@include b--> <!--$m-->".toList
    let bad : Text := "x\n<!--@include b-->".toList
    definitionsText defs = "<!--$m = 2 ---><!--$n = 1-->".toList ∧
      (source ctx options (definitionsText defs ++ good)).outcome = .ok "13 2 -".toList ∧
      ∀ f, (source ctx { options with initial := initial } bad).outcome = .error f →
        ∃ offset f', commentOpening <+: bad.drop offset ∧
          (source ctx options (definitionsText defs ++ bad)).outcome = .error f' ∧
          Failure.Relocated (siteOf (options.document bad) offset)
            (siteOf (options.document (definitionsText defs ++ bad))
              (offset + (definitionsText defs).length)) f f' := by
  intro m ctx options initial defs good bad
  have hinitial : ∀ e ∈ initial, IsDefinable ctx.settings.nilSentinel e := by
    intro e he
    rcases List.mem_pair.1 he with rfl | rfl
    · exact ⟨List.forall_mem_singleton.2 (by decide), by decide, by decide, by decide, by decide⟩
    · exact ⟨List.forall_mem_singleton.2 (by decide), by decide, by decide, by decide, by decide⟩
  have hgood : Block.scan good = .ok [⟨0, "<!--$k=3-->".toList⟩, ⟨11, "<!--@include b-->".toList⟩,
      ⟨28, " ".toList⟩, ⟨29, "<!--$m-->".toList⟩] := by decide +kernel
  have hbad : Block.scan bad = .ok [⟨0, "x\n".toList⟩, ⟨2, "<!--@include b-->".toList⟩] := by
    decide +kernel
  obtain ⟨hok, -⟩ := source_of_definitions ctx options initial defs (by decide) hinitial
    (by decide) good fun bs hbs => by
      obtain rfl := Except.ok.inj (hgood.symm.trans hbs)
      decide
  obtain ⟨-, herror⟩ := source_of_definitions ctx options initial defs (by decide) hinitial
    (by decide) bad fun bs hbs => by
      obtain rfl := Except.ok.inj (hbad.symm.trans hbs)
      decide
  exact ⟨by decide, (hok _).2 (by decide +kernel), herror⟩

end Compile

end CommentMarkup
