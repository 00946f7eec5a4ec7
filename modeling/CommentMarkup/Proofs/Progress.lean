/-
# Progress through a document

Compiling a document goes through its blocks one by one.  `Reaches` says that it gets from one
place between two blocks to a later one, and what it leaves on the way; what is compiled from
the first place is then what was left, followed by what is compiled from the later one
(`compile_of_reaches`).  A compilation fails exactly where it reaches a block that fails
(`blocks_eq_error_iff`), and it depends on the way includes are compiled only through the
blocks that it reaches (`blocks_congr`).
-/
import CommentMarkup.Compile
import CommentMarkup.Proofs.Run

namespace CommentMarkup.Compile

/-- A compilation that goes on where some text has been left and some events have happened. -/
def goOn (text : Text) (events : List Event) (c : Compilation) : Compilation :=
  ⟨c.outcome.map (text ++ ·), c.scope, events ++ c.events⟩

lemma goOn_nil (c : Compilation) : goOn [] [] c = c := by
  cases c with
  | mk outcome scope events => cases outcome <;> simp [goOn, Except.map]

lemma goOn_goOn (t₁ t₂ : Text) (e₁ e₂ : List Event) (c : Compilation) :
    goOn t₁ e₁ (goOn t₂ e₂ c) = goOn (t₁ ++ t₂) (e₁ ++ e₂) c := by
  cases c with
  | mk outcome scope events => cases outcome <;> simp [goOn, Except.map]

lemma goOn_eq_error_iff {text : Text} {events : List Event} {c : Compilation} {f : Failure} :
    (goOn text events c).outcome = .error f ↔ c.outcome = .error f := by
  cases h : c.outcome <;> simp [goOn, h, Except.map]

lemma goOn_eq_ok_iff {left text : Text} {events : List Event} {c : Compilation} :
    (goOn left events c).outcome = .ok text ↔
      ∃ later, c.outcome = .ok later ∧ text = left ++ later := by
  cases h : c.outcome <;> simp [goOn, h, Except.map, eq_comm]

/-- A place between two blocks of a document. -/
structure Cursor where
  /-- The block before it. -/
  previous : Option Block
  /-- The blocks after it. -/
  rest : List Block
  /-- The variables at this place. -/
  scope : Scope

variable (ctx : Context) (nested : Document → Scope → Run Text) (d : Document)

/-- What compiling the blocks after a cursor yields. -/
def Cursor.compile (c : Cursor) : Compilation :=
  blocks ctx nested d c.previous c.rest c.scope

/-- The compilation of a document gets from one cursor to a later one, leaving a text and
making events on the way. -/
inductive Reaches : Cursor → Text → List Event → Cursor → Prop where
  /-- It is there. -/
  | here (c : Cursor) : Reaches c [] [] c
  /-- The next block is left out. -/
  | skip {previous : Option Block} {b : Block} {rest : List Block} {scope : Scope} {text : Text}
      {events : List Event} {c : Cursor} (hout : collapses previous b rest.head? = true)
      (h : Reaches ⟨some b, rest, scope⟩ text events c) :
      Reaches ⟨previous, b :: rest, scope⟩ text events c
  /-- The next block leaves a text. -/
  | keep {previous : Option Block} {b : Block} {rest : List Block} {scope : Scope}
      {left text : Text} {events : List Event} {c : Cursor}
      (hin : collapses previous b rest.head? = false)
      (hleft : (block ctx nested d scope b).outcome = .ok left)
      (h : Reaches ⟨some b, rest, (block ctx nested d scope b).scope⟩ text events c) :
      Reaches ⟨previous, b :: rest, scope⟩ (left ++ text)
        ((block ctx nested d scope b).events ++ events) c

variable {ctx nested d} {previous : Option Block} {b : Block} {rest : List Block}
  {scope scope' : Scope} {f : Failure}

/-! ### The next block -/

lemma compile_skip (hout : collapses previous b rest.head? = true) :
    (Cursor.mk previous (b :: rest) scope).compile ctx nested d
      = (Cursor.mk (some b) rest scope).compile ctx nested d := by
  simp [Cursor.compile, blocks, hout]

lemma compile_keep (hin : collapses previous b rest.head? = false) {left : Text}
    (hleft : (block ctx nested d scope b).outcome = .ok left) :
    (Cursor.mk previous (b :: rest) scope).compile ctx nested d
      = goOn left (block ctx nested d scope b).events
          ((Cursor.mk (some b) rest (block ctx nested d scope b).scope).compile ctx nested d) := by
  simp [Cursor.compile, blocks, hin, hleft, goOn]

lemma compile_stop (hin : collapses previous b rest.head? = false)
    (hf : (block ctx nested d scope b).outcome = .error f) :
    (Cursor.mk previous (b :: rest) scope).compile ctx nested d
      = block ctx nested d scope b := by
  simp [Cursor.compile, blocks, hin, hf]

/-! ### Many blocks -/

/-- What is compiled from a cursor is what is left up to a later one, followed by what is
compiled from there. -/
theorem compile_of_reaches {c c' : Cursor} {text : Text} {events : List Event}
    (h : Reaches ctx nested d c text events c') :
    c.compile ctx nested d = goOn text events (c'.compile ctx nested d) := by
  induction h with
  | here c => rw [goOn_nil]
  | skip hout _ ih => rw [compile_skip hout, ih]
  | keep hin hleft _ ih => rw [compile_keep hin hleft, ih, goOn_goOn]

/-- The block before a place is the last one on the way to it. -/
lemma Reaches.previous_eq {c c' : Cursor} {text : Text} {events : List Event}
    (h : Reaches ctx nested d c text events c') :
    ∃ before, c.rest = before ++ c'.rest ∧ c'.previous = before.getLast?.or c.previous := by
  induction h with
  | here c => exact ⟨[], rfl, rfl⟩
  | @skip _ b _ _ _ _ _ _ _ ih | @keep _ b _ _ _ _ _ _ _ _ _ ih =>
    obtain ⟨before, hbefore, hprevious⟩ := ih
    refine ⟨b :: before, by rw [List.cons_append, ← hbefore], ?_⟩
    rw [hprevious, List.getLast?_cons]
    cases before.getLast? <;> rfl

lemma Reaches.exists_before {c c' : Cursor} {text : Text} {events : List Event}
    (h : Reaches ctx nested d c text events c') : ∃ before, c.rest = before ++ c'.rest := by
  obtain ⟨before, hbefore, -⟩ := h.previous_eq
  exact ⟨before, hbefore⟩

lemma Reaches.trans {c c' c'' : Cursor} {text₁ text₂ : Text} {events₁ events₂ : List Event}
    (h₁ : Reaches ctx nested d c text₁ events₁ c') (h₂ : Reaches ctx nested d c' text₂ events₂ c'') :
    Reaches ctx nested d c (text₁ ++ text₂) (events₁ ++ events₂) c'' := by
  induction h₁ with
  | here c => exact h₂
  | skip hout _ ih => exact .skip hout (ih h₂)
  | keep hin hleft _ ih =>
    rw [List.append_assoc, List.append_assoc]
    exact .keep hin hleft (ih h₂)

/-- A compilation fails exactly if it reaches a block that fails, and as that block does. -/
theorem blocks_eq_error_iff {c : Cursor} :
    (c.compile ctx nested d).outcome = .error f ↔
      ∃ text events previous b rest scope,
        Reaches ctx nested d c text events ⟨previous, b :: rest, scope⟩ ∧
          collapses previous b rest.head? = false ∧
          (block ctx nested d scope b).outcome = .error f := by
  constructor
  · obtain ⟨previous, bs, scope⟩ := c
    induction bs generalizing previous scope with
    | nil =>
      intro h
      simp [Cursor.compile, blocks] at h
    | cons b rest ih =>
      intro h
      cases hc : collapses previous b rest.head? with
      | true =>
        rw [compile_skip hc] at h
        obtain ⟨text, events, p, b', rest', scope', hreach, hrest⟩ := ih _ _ h
        exact ⟨text, events, p, b', rest', scope', .skip hc hreach, hrest⟩
      | false =>
        cases hb : (block ctx nested d scope b).outcome with
        | error f' =>
          rw [compile_stop hc hb, hb] at h
          exact ⟨[], [], previous, b, rest, scope, .here _, hc, hb.trans h⟩
        | ok left =>
          rw [compile_keep hc hb, goOn_eq_error_iff] at h
          obtain ⟨text, events, p, b', rest', scope', hreach, hrest⟩ := ih _ _ h
          exact ⟨_, _, p, b', rest', scope', .keep hc hb hreach, hrest⟩
  · rintro ⟨text, events, p, b, rest, scope, hreach, hin, hf⟩
    rw [compile_of_reaches hreach, goOn_eq_error_iff, compile_stop hin hf, hf]

/-- A compilation that gets to the end leaves what it has left on the way. -/
lemma Reaches.compile_eq {c : Cursor} {text : Text} {events : List Event}
    (h : Reaches ctx nested d c text events ⟨previous, [], scope⟩) :
    c.compile ctx nested d = ⟨.ok text, scope, events⟩ := by
  rw [compile_of_reaches h]
  simp [Cursor.compile, blocks, goOn, Except.map]

/-- A compilation succeeds only by getting to the end. -/
lemma exists_reaches_of_ok {c : Cursor} {text : Text}
    (h : (c.compile ctx nested d).outcome = .ok text) :
    ∃ events previous scope, Reaches ctx nested d c text events ⟨previous, [], scope⟩ := by
  obtain ⟨previous, bs, scope⟩ := c
  induction bs generalizing previous scope text with
  | nil =>
    have htext : [] = text := by simpa [Cursor.compile, blocks] using h
    exact ⟨[], previous, scope, htext ▸ .here _⟩
  | cons b rest ih =>
    cases hc : collapses previous b rest.head? with
    | true =>
      rw [compile_skip hc] at h
      obtain ⟨events, p, scope', hreach⟩ := ih _ _ h
      exact ⟨events, p, scope', .skip hc hreach⟩
    | false =>
      cases hb : (block ctx nested d scope b).outcome with
      | error f => simp [compile_stop hc hb, hb] at h
      | ok left =>
        rw [compile_keep hc hb] at h
        obtain ⟨later, hlater, rfl⟩ := goOn_eq_ok_iff.1 h
        obtain ⟨events, p, scope', hreach⟩ := ih _ _ hlater
        exact ⟨_, p, scope', .keep hc hb hreach⟩

/-- Two ways to compile includes lead to the same compilation if they agree on every block
that is reached. -/
theorem blocks_congr {nested₁ nested₂ : Document → Scope → Run Text} {c : Cursor}
    (h : ∀ text events previous b rest scope,
      Reaches ctx nested₁ d c text events ⟨previous, b :: rest, scope⟩ →
        collapses previous b rest.head? = false →
          block ctx nested₁ d scope b = block ctx nested₂ d scope b) :
    c.compile ctx nested₁ d = c.compile ctx nested₂ d := by
  obtain ⟨previous, bs, scope⟩ := c
  induction bs generalizing previous scope with
  | nil => rfl
  | cons b rest ih =>
    cases hc : collapses previous b rest.head? with
    | true =>
      rw [compile_skip hc, compile_skip hc]
      exact ih _ _ fun text events p b' rest' scope' hreach =>
        h text events p b' rest' scope' (.skip hc hreach)
    | false =>
      have hb := h [] [] previous b rest scope (.here _) hc
      cases hleft : (block ctx nested₁ d scope b).outcome with
      | error f => rw [compile_stop hc hleft, compile_stop hc (hb ▸ hleft), hb]
      | ok left =>
        rw [compile_keep hc hleft, compile_keep hc (hb ▸ hleft), ← hb]
        rw [ih _ _ fun text events p b' rest' scope' hreach =>
          h _ _ p b' rest' scope' (.keep hc hleft hreach)]

/-! ### Documents -/

variable (ctx nested d) in
/-- Compiling a document from some variables reaches a directive and executes it, with these
variables. -/
def Executes (scope : Scope) (b : Block) (scope' : Scope) : Prop :=
  b.isSpecial = true ∧ ∃ bs text events previous rest, Block.scan d.text = .ok bs ∧
    Reaches ctx nested d ⟨none, bs, scope⟩ text events ⟨previous, b :: rest, scope'⟩ ∧
    collapses previous b rest.head? = false

lemma Executes.mem_scan (h : Executes ctx nested d scope b scope') :
    ∃ bs, Block.scan d.text = .ok bs ∧ b ∈ bs := by
  obtain ⟨-, bs, text, events, previous, rest, hscan, hreach, -⟩ := h
  obtain ⟨before, hbs⟩ := hreach.exists_before
  have hbs' : bs = before ++ b :: rest := hbs
  exact ⟨bs, hscan, by simp [hbs']⟩

lemma documentWith_of_scan_error {offset : Nat} (h : Block.scan d.text = .error offset) :
    documentWith ctx nested d scope = ⟨.error (.diagnosed (unterminated d offset)), scope, []⟩ := by
  simp [documentWith, h]

lemma documentWith_of_scan_ok {bs : List Block} (h : Block.scan d.text = .ok bs) :
    (documentWith ctx nested d scope).outcome
        = ((Cursor.mk none bs scope).compile ctx nested d).outcome ∧
      (documentWith ctx nested d scope).scope
        = ((Cursor.mk none bs scope).compile ctx nested d).scope := by
  simp [documentWith, h, Cursor.compile]

/-- What is compiled of a document from its beginning is what is left up to a later place, followed
by what is compiled from there. -/
lemma documentWith_of_reaches {bs : List Block} {text : Text} {events : List Event} {c : Cursor}
    (hscan : Block.scan d.text = .ok bs)
    (hreach : Reaches ctx nested d ⟨none, bs, scope⟩ text events c) :
    (documentWith ctx nested d scope).outcome
      = (c.compile ctx nested d).outcome.map (text ++ ·) := by
  rw [(documentWith_of_scan_ok hscan).1, compile_of_reaches hreach]
  rfl

/-- What has been left on the way stands at the beginning of what a document is compiled to. -/
lemma Reaches.prefix_of_ok {bs : List Block} {text compiled : Text} {events : List Event}
    {c : Cursor} (hreach : Reaches ctx nested d ⟨none, bs, scope⟩ text events c)
    (hscan : Block.scan d.text = .ok bs)
    (h : (documentWith ctx nested d scope).outcome = .ok compiled) : text <+: compiled := by
  rw [documentWith_of_reaches hscan hreach] at h
  cases hrest : (c.compile ctx nested d).outcome with
  | error f => simp [hrest, Except.map] at h
  | ok rest =>
    rw [hrest] at h
    exact ⟨rest, Except.ok.inj h⟩

/-- What a directive leaves stands in what its document is compiled to. -/
lemma Executes.exists_infix {text : Text} (h : Executes ctx nested d scope b scope')
    (hok : (documentWith ctx nested d scope).outcome = .ok text) :
    ∃ left, (block ctx nested d scope' b).outcome = .ok left ∧ left <:+: text := by
  obtain ⟨-, bs, before, events, previous, rest, hscan, hreach, hin⟩ := h
  cases hleft : (block ctx nested d scope' b).outcome with
  | error f =>
    rw [documentWith_of_reaches hscan hreach, compile_stop hin hleft, hleft] at hok
    simp [Except.map] at hok
  | ok left =>
    have hpast := (hreach.trans (.keep hin hleft (.here _))).prefix_of_ok hscan hok
    refine ⟨left, rfl, (List.IsInfix.trans ?_ hpast.isInfix)⟩
    exact ⟨before, [], by simp⟩

lemma block_of_isSpecial (h : b.isSpecial = true) :
    block ctx nested d scope b =
      { execute ctx nested d scope b with
        outcome := (execute ctx nested d scope b).outcome.mapError
          (·.leaving (siteOf d b.start)) } := by
  simp [block, h]

lemma block_of_not_isSpecial (h : b.isSpecial = false) :
    block ctx nested d scope b = ⟨.ok b.data, scope, []⟩ := by
  simp [block, h]

lemma mapError_eq_error_iff {x : Except Failure Text} {g : Failure → Failure} :
    x.mapError g = .error f ↔ ∃ f₀, x = .error f₀ ∧ f = g f₀ := by
  cases x with
  | ok text =>
    have hok : (Except.ok text : Except Failure Text).mapError g = .ok text := rfl
    simp [hok]
  | error f₀ =>
    have herror : (Except.error f₀ : Except Failure Text).mapError g = .error (g f₀) := rfl
    simp [herror, eq_comm]

/-- A directive leaves what its execution leaves. -/
lemma block_eq_ok_iff (h : b.isSpecial = true) {text : Text} :
    (block ctx nested d scope b).outcome = .ok text ↔
      (execute ctx nested d scope b).outcome = .ok text := by
  rw [block_of_isSpecial h]
  cases (execute ctx nested d scope b).outcome <;> simp [Except.mapError]

/-- A failing block is a directive whose execution fails. -/
lemma block_eq_error_iff :
    (block ctx nested d scope b).outcome = .error f ↔
      b.isSpecial = true ∧ ∃ f₀, (execute ctx nested d scope b).outcome = .error f₀ ∧
        f = f₀.leaving (siteOf d b.start) := by
  cases hb : b.isSpecial with
  | false => simp [block_of_not_isSpecial hb]
  | true =>
    rw [block_of_isSpecial hb, mapError_eq_error_iff]
    simp

/-- A document fails exactly if one of its comments is never closed, or if the execution of a
directive that it reaches fails. -/
theorem documentWith_eq_error_iff :
    (documentWith ctx nested d scope).outcome = .error f ↔
      (∃ offset, Block.scan d.text = .error offset ∧ f = .diagnosed (unterminated d offset)) ∨
        ∃ b scope' f₀, Executes ctx nested d scope b scope' ∧
          (execute ctx nested d scope' b).outcome = .error f₀ ∧
          f = f₀.leaving (siteOf d b.start) := by
  cases hscan : Block.scan d.text with
  | error offset =>
    rw [documentWith_of_scan_error hscan]
    constructor
    · intro h
      exact Or.inl ⟨offset, rfl, by simpa using h.symm⟩
    · rintro (⟨offset', heq, rfl⟩ | ⟨b, scope', f₀, hexec, -⟩)
      · rw [Except.error.inj heq]
      · obtain ⟨bs, hbs, -⟩ := hexec.mem_scan
        rw [hscan] at hbs
        exact absurd hbs (by simp)
  | ok bs =>
    rw [(documentWith_of_scan_ok hscan).1, blocks_eq_error_iff]
    constructor
    · rintro ⟨text, events, previous, b, rest, scope', hreach, hin, hf⟩
      obtain ⟨hspecial, f₀, hf₀, rfl⟩ := block_eq_error_iff.1 hf
      exact Or.inr ⟨b, scope', f₀,
        ⟨hspecial, bs, text, events, previous, rest, hscan, hreach, hin⟩, hf₀, rfl⟩
    · rintro (⟨offset, heq, -⟩ | ⟨b, scope', f₀, hexec, hf₀, rfl⟩)
      · exact absurd heq (by simp)
      · obtain ⟨hspecial, bs', text, events, previous, rest, hscan', hreach, hin⟩ := hexec
        rw [hscan] at hscan'
        obtain rfl := Except.ok.inj hscan'
        exact ⟨text, events, previous, b, rest, scope', hreach, hin,
          block_eq_error_iff.2 ⟨hspecial, f₀, hf₀, rfl⟩⟩

/-- Two ways to compile includes lead to the same compilation of a document if they agree on
every directive that is executed. -/
theorem documentWith_congr {nested₁ nested₂ : Document → Scope → Run Text}
    (h : ∀ b scope', Executes ctx nested₁ d scope b scope' →
      execute ctx nested₁ d scope' b = execute ctx nested₂ d scope' b) :
    documentWith ctx nested₁ d scope = documentWith ctx nested₂ d scope := by
  cases hscan : Block.scan d.text with
  | error offset => rw [documentWith_of_scan_error hscan, documentWith_of_scan_error hscan]
  | ok bs =>
    have hbody : (Cursor.mk none bs scope).compile ctx nested₁ d
        = (Cursor.mk none bs scope).compile ctx nested₂ d := by
      refine blocks_congr fun text events previous b rest scope' hreach hin => ?_
      cases hb : b.isSpecial with
      | false => rw [block_of_not_isSpecial hb, block_of_not_isSpecial hb]
      | true =>
        rw [block_of_isSpecial hb, block_of_isSpecial hb,
          h b scope' ⟨hb, bs, text, events, previous, rest, hscan, hreach, hin⟩]
    simp only [Cursor.compile] at hbody
    simp [documentWith, hscan, hbody]

end CommentMarkup.Compile
