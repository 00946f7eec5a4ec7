/-
# What becomes of a text

A block of a document yields a text: a directive what its execution leaves, any other block
its own characters (`Yields`).  What a document compiles to is made of these texts in their
order, without those of the blocks that are left out (`exists_yields_of_reaches`).  Only
blank blocks next to definitions are left out, so nothing but directives and the blanks around
definitions is ever changed (`document_keeps_content`).
-/
import CommentMarkup.Proofs.Partition
import CommentMarkup.Proofs.Scoping

namespace CommentMarkup

/-- Some texts stand in a text, in their order and none of them inside another. -/
inductive Text.InOrder : List Text → Text → Prop where
  /-- There are none. -/
  | nil (whole : Text) : InOrder [] whole
  /-- The first one stands somewhere, and the others behind it. -/
  | cons (before part : Text) {parts : List Text} {after : Text} (h : InOrder parts after) :
      InOrder (part :: parts) (before ++ part ++ after)

lemma Text.InOrder.append_left {parts : List Text} {whole : Text} (h : InOrder parts whole)
    (more : Text) : InOrder parts (more ++ whole) := by
  cases h with
  | nil => exact .nil _
  | cons before part h =>
    have hcons := InOrder.cons (more ++ before) part h
    simpa using hcons

/-- A text without its blank characters. -/
def Text.withoutBlanks (s : Text) : Text := s.filter fun c => !isBlank c

lemma Text.withoutBlanks_append (s t : Text) :
    withoutBlanks (s ++ t) = withoutBlanks s ++ withoutBlanks t :=
  List.filter_append s t

lemma Text.withoutBlanks_of_allBlank {s : Text} (h : allBlank s = true) :
    withoutBlanks s = [] := by
  refine List.filter_eq_nil_iff.2 fun c hc => ?_
  simp [List.all_eq_true.1 h c hc]

namespace Block

/-- A block that is copied and that shows: neither a directive nor blank. -/
def isContent (b : Block) : Bool := !b.isSpecial && !Text.allBlank b.data

end Block

namespace Compile

variable (ctx : Context) (nested : Document → Scope → Run Text) (d : Document)

/-- What the blocks of a document yield, from some variables on: a directive the text that its
execution leaves, and any other block its own characters. -/
inductive Yields : List Block → Scope → List Text → Prop where
  /-- There are no blocks. -/
  | nil (scope : Scope) : Yields [] scope []
  /-- A block that is no directive stands for itself. -/
  | copied {b : Block} {rest : List Block} {scope : Scope} {texts : List Text}
      (hcopied : b.isSpecial = false) (h : Yields rest scope texts) :
      Yields (b :: rest) scope (b.data :: texts)
  /-- A directive stands for what it leaves, and changes the variables for what follows. -/
  | executed {b : Block} {rest : List Block} {scope : Scope} {text : Text} {texts : List Text}
      (hspecial : b.isSpecial = true) (hleft : (execute ctx nested d scope b).outcome = .ok text)
      (h : Yields rest (execute ctx nested d scope b).scope texts) :
      Yields (b :: rest) scope (text :: texts)

variable {ctx nested d} {previous : Option Block} {b : Block} {bs : List Block} {scope : Scope}
  {text : Text} {texts : List Text}

/-- The texts of the blocks that are not left out, given the block before them. -/
def kept : Option Block → List Block → List Text → Text
  | previous, b :: rest, text :: texts =>
    (if collapses previous b rest.head? then [] else text) ++ kept (some b) rest texts
  | _, _, _ => []

/-! ### What is left out -/

lemma isDefinition_of_collapses {next : Option Block} (h : collapses previous b next = true) :
    Text.allBlank b.data = true ∧
      (previous.any (·.isDefinition) = true ∨ next.any (·.isDefinition) = true) := by
  rw [collapses, Bool.and_eq_true, Bool.or_eq_true] at h
  exact h

lemma not_isSpecial_of_collapses {next : Option Block} (h : collapses previous b next = true) :
    b.isSpecial = false := by
  cases hb : b.isSpecial with
  | false => rfl
  | true => simp [not_collapses_of_isSpecial hb] at h

lemma not_collapses_of_isContent {next : Option Block} (h : b.isContent = true) :
    collapses previous b next = false := by
  simp only [Block.isContent, Bool.and_eq_true, Bool.not_eq_true'] at h
  simp [collapses, h.2]

/-- Where nothing is defined, nothing is left out. -/
lemma not_collapses_of_not_isDefinition (hprevious : previous.any (·.isDefinition) = false)
    (hbs : ∀ c ∈ b :: bs, c.isDefinition = false) : collapses previous b bs.head? = false := by
  have hnext : bs.head?.any (·.isDefinition) = false := by
    cases bs with
    | nil => rfl
    | cons next rest => exact hbs next (by simp)
  simp [collapses, hprevious, hnext]

/-! ### What a compilation leaves -/

/-- A block that leaves a text yields it. -/
lemma Yields.cons_of_block {left : Text}
    (hleft : (block ctx nested d scope b).outcome = .ok left)
    (h : Yields ctx nested d bs (block ctx nested d scope b).scope texts) :
    Yields ctx nested d (b :: bs) scope (left :: texts) := by
  cases hspecial : b.isSpecial with
  | false =>
    rw [block_of_not_isSpecial hspecial] at hleft h
    obtain rfl := Except.ok.inj hleft
    exact .copied hspecial h
  | true =>
    have hexec := (block_eq_ok_iff hspecial).1 hleft
    rw [block_of_isSpecial hspecial] at h
    exact .executed hspecial hexec h

/-- What is left on the way to the end is made of what the blocks yield, without the ones that
are left out. -/
theorem exists_yields_of_reaches {c c' : Cursor} {events : List Event}
    (h : Reaches ctx nested d c text events c') (hend : c'.rest = []) :
    ∃ texts, Yields ctx nested d c.rest c.scope texts ∧
      text = kept c.previous c.rest texts := by
  induction h with
  | here c =>
    rw [hend]
    exact ⟨[], .nil c.scope, rfl⟩
  | @skip previous b rest scope text events c hout _ ih =>
    obtain ⟨texts, hyields, htext⟩ := ih hend
    refine ⟨_, .copied (not_isSpecial_of_collapses hout) hyields, ?_⟩
    simp only [kept, hout, if_true, List.nil_append]
    exact htext
  | @keep previous b rest scope left text events c hin hleft _ ih =>
    obtain ⟨texts, hyields, htext⟩ := ih hend
    refine ⟨_, .cons_of_block hleft hyields, ?_⟩
    simp only [kept, hin, Bool.false_eq_true, if_false]
    exact congrArg (left ++ ·) htext

/-- A definition yields nothing. -/
lemma Yields.eq_nil_of_isDefinition (h : Yields ctx nested d bs scope texts) :
    ∀ p ∈ bs.zip texts, p.1.isDefinition = true → p.2 = [] := by
  induction h with
  | nil => simp
  | copied hcopied _ ih =>
    rw [List.zip_cons_cons, List.forall_mem_cons]
    refine ⟨fun hdefinition => ?_, ih⟩
    simp [Block.isSpecial_of_isDefinition hdefinition] at hcopied
  | @executed b rest scope text texts hspecial hleft _ ih =>
    rw [List.zip_cons_cons, List.forall_mem_cons]
    refine ⟨fun hdefinition => ?_, ih⟩
    rw [execute_outcome] at hleft
    cases haction : b.directive with
    | definition name value => simpa [haction, directive, eq_comm] using hleft
    | inclusion | reference | compilation => simp [Block.isDefinition, haction] at hdefinition

/-- Where nothing is defined, all texts are kept. -/
lemma Yields.kept_eq_flatten (h : Yields ctx nested d bs scope texts)
    (hprevious : previous.any (·.isDefinition) = false)
    (hbs : ∀ b ∈ bs, b.isDefinition = false) : kept previous bs texts = texts.flatten := by
  induction h generalizing previous with
  | nil => rfl
  | copied _ _ ih | executed _ _ _ ih =>
    rw [kept, not_collapses_of_not_isDefinition hprevious hbs, List.flatten_cons,
      ih (by simp [hbs _ List.mem_cons_self]) fun c hc => hbs c (List.mem_cons_of_mem _ hc)]
    rfl

/-- The texts that are left out are blank. -/
lemma Yields.withoutBlanks_kept (h : Yields ctx nested d bs scope texts) :
    Text.withoutBlanks (kept previous bs texts) = Text.withoutBlanks texts.flatten := by
  induction h generalizing previous with
  | nil => rfl
  | @copied b rest scope texts hcopied _ ih =>
    rw [kept, List.flatten_cons, Text.withoutBlanks_append, Text.withoutBlanks_append, ih]
    cases hc : collapses previous b rest.head? with
    | true =>
      rw [Text.withoutBlanks_of_allBlank (isDefinition_of_collapses hc).1]
      rfl
    | false => rfl
  | executed hspecial _ _ ih =>
    rw [kept, not_collapses_of_isSpecial hspecial, List.flatten_cons, Text.withoutBlanks_append,
      Text.withoutBlanks_append, ih]
    rfl

/-- Every block of content stands among the texts that are kept. -/
lemma Yields.content_inOrder (h : Yields ctx nested d bs scope texts) :
    Text.InOrder ((bs.filter Block.isContent).map Block.data) (kept previous bs texts) := by
  induction h generalizing previous with
  | nil => exact .nil _
  | @copied b rest scope texts _ _ ih =>
    cases hcontent : b.isContent with
    | true =>
      rw [kept, not_collapses_of_isContent hcontent, List.filter_cons_of_pos hcontent]
      exact .cons [] b.data ih
    | false =>
      rw [kept, List.filter_cons_of_neg (by simp [hcontent])]
      exact ih.append_left _
  | @executed b rest scope text texts hspecial _ _ ih =>
    have hcontent : b.isContent = false := by simp [Block.isContent, hspecial]
    rw [kept, List.filter_cons_of_neg (by simp [hcontent])]
    exact ih.append_left _

/-! ### Documents -/

/-- Blocks without a directive are copied, and nothing happens. -/
lemma compile_of_not_isSpecial (hprevious : previous.any (·.isDefinition) = false)
    (hbs : ∀ b ∈ bs, b.isSpecial = false) :
    (Cursor.mk previous bs scope).compile ctx nested d
      = ⟨.ok (bs.flatMap Block.data), scope, []⟩ := by
  have hdefinition : ∀ b ∈ bs, b.isDefinition = false := by
    intro b hb
    rw [Block.isDefinition, hbs b hb, Bool.false_and]
  induction bs generalizing previous with
  | nil => rfl
  | cons b rest ih =>
    have hb : block ctx nested d scope b = ⟨.ok b.data, scope, []⟩ :=
      block_of_not_isSpecial (hbs b List.mem_cons_self)
    rw [compile_keep (not_collapses_of_not_isDefinition hprevious hdefinition)
        (congrArg Compilation.outcome hb), hb,
      ih (by simpa using hdefinition b List.mem_cons_self)
        (fun c hc => hbs c (List.mem_cons_of_mem _ hc))
        fun c hc => hdefinition c (List.mem_cons_of_mem _ hc)]
    rfl

/-- What a document compiles to is its text, with what each directive leaves in place of the
directive, but for blanks that are left out around definitions.  Where nothing is defined no
blank is left out.  A block of content, which is neither a directive nor blank, is there as it
is, and such blocks are there in their order.  A document without directives compiles to its
own text, without a call of the store, whatever the variables and the settings are. -/
theorem document_keeps_content (ctx : Context) (d : Document) (scope : Scope) :
    (∀ text, (document ctx d scope).outcome = .ok text →
      ∃ bs texts, Block.scan d.text = .ok bs ∧ bs.flatMap Block.data = d.text ∧
        Yields ctx (nestedIn ctx) d bs scope texts ∧
        (∀ p ∈ bs.zip texts, p.1.isDefinition = true → p.2 = []) ∧
        ((∀ b ∈ bs, b.isDefinition = false) → text = texts.flatten) ∧
        Text.withoutBlanks text = Text.withoutBlanks texts.flatten ∧
        Text.InOrder ((bs.filter Block.isContent).map Block.data) text) ∧
      ∀ bs, Block.scan d.text = .ok bs → (∀ b ∈ bs, b.isSpecial = false) →
        (document ctx d scope).outcome = .ok d.text ∧
          (document ctx d scope).events.filter Event.isCall = [] := by
  have hdocument : document ctx d scope = documentWith ctx (nestedIn ctx) d scope := rfl
  rw [hdocument]
  constructor
  · intro text h
    cases hscan : Block.scan d.text with
    | error offset => simp [documentWith_of_scan_error hscan] at h
    | ok bs =>
      rw [(documentWith_of_scan_ok hscan).1] at h
      obtain ⟨events, previous, scope', hreach⟩ := exists_reaches_of_ok h
      obtain ⟨texts, hyields, rfl⟩ := exists_yields_of_reaches hreach rfl
      exact ⟨bs, texts, rfl, Block.flatMap_data_of_scan hscan, hyields,
        hyields.eq_nil_of_isDefinition, hyields.kept_eq_flatten rfl, hyields.withoutBlanks_kept,
        hyields.content_inOrder⟩
  · intro bs hscan hbs
    have hbody : blocks ctx (nestedIn ctx) d none bs scope = ⟨.ok d.text, scope, []⟩ := by
      rw [← Block.flatMap_data_of_scan hscan]
      exact compile_of_not_isSpecial rfl hbs
    simp [documentWith, hscan, hbody, Event.isCall]

/-- A line that holds only a definition, between two lines of content. -/
theorem document_keeps_content_of_definition_line :
    let ctx : Context := ⟨(MemoryStore.mk [] []).toStore, {}, "/site".toList, Codec.builtIn⟩
    let d : Document :=
      { text := "a\n <!--$n=1-->\n<b> <!--$n-->\n".toList, file := "/site/a.kit".toList
        rootDir := "/site".toList, parents := [] }
    (document ctx d .empty).outcome = .ok "a\n<b> 1\n".toList ∧
      Text.InOrder ["a\n".toList, "<b> ".toList] "a\n<b> 1\n".toList := by
  intro ctx d
  have houtcome : (document ctx d .empty).outcome = .ok "a\n<b> 1\n".toList := by decide +kernel
  have hscan : Block.scan d.text = .ok [⟨0, "a\n".toList⟩, ⟨2, " ".toList⟩,
      ⟨3, "<!--$n=1-->".toList⟩, ⟨14, "\n".toList⟩, ⟨15, "<b> ".toList⟩,
      ⟨19, "<!--$n-->".toList⟩, ⟨28, "\n".toList⟩] := by decide +kernel
  obtain ⟨bs, texts, hbs, -, -, -, -, -, horder⟩ := (document_keeps_content ctx d .empty).1 _ houtcome
  obtain rfl := Except.ok.inj (hscan.symm.trans hbs)
  exact ⟨houtcome, horder⟩

end Compile

end CommentMarkup
