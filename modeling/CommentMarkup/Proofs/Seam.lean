/-
# Documents one behind the other

A text that ends at the end of a block can be followed by any other text: the blocks of both
together are the blocks of the one and then those of the other, moved behind the first
(`scan_append`).  What is compiled is then what the first text leaves, and behind it what the
second one leaves with the variables at the end of the first, provided that no blank block is
left out because of a definition on the other side of the seam (`document_append`).  A failure
in the second text has another place then, and says the same (`Failure.Relocated`).
-/
import CommentMarkup.Proofs.Lexeme
import CommentMarkup.Proofs.Location
import CommentMarkup.Proofs.Scoping

namespace CommentMarkup

namespace Block

/-- A block that stands further back in a text. -/
def moved (n : Nat) (b : Block) : Block := { b with start := b.start + n }

variable {start n : Nat} {s t : Text} {bs later : List Block} {b : Block}

/-! ### Scanning over the seam -/

lemma scanFrom_add (h : scanFrom start s = .ok bs) :
    scanFrom (start + n) s = .ok (bs.map (moved n)) := by
  induction start, s using scanFrom.induct generalizing bs with
  | case1 start =>
    rw [scanFrom_nil] at h ⊢
    rw [← Except.ok.inj h, List.map_nil]
  | case2 start s hs hnone => simp [scanFrom_of_lexeme?_eq_none hs hnone] at h
  | case3 start s hs data rest hlexeme offset herror =>
    simp [scanFrom_of_lexeme? hs hlexeme, herror, Except.map] at h
  | case4 start s hs data rest hlexeme later hlater ih =>
    rw [scanFrom_of_lexeme? hs hlexeme, hlater] at h
    rw [scanFrom_of_lexeme? hs hlexeme, Nat.add_right_comm, ih hlater, ← Except.ok.inj h]
    rfl

lemma scanFrom_add_of_error {offset : Nat} (h : scanFrom start s = .error offset) :
    scanFrom (start + n) s = .error (offset + n) := by
  induction start, s using scanFrom.induct with
  | case1 start => simp [scanFrom_nil] at h
  | case2 start s hs hnone =>
    rw [scanFrom_of_lexeme?_eq_none hs hnone] at h ⊢
    rw [Except.error.inj h]
  | case3 start s hs data rest hlexeme offset' herror ih =>
    rw [scanFrom_of_lexeme? hs hlexeme, herror] at h
    obtain rfl : offset' = offset := Except.error.inj h
    rw [scanFrom_of_lexeme? hs hlexeme, Nat.add_right_comm, ih herror]
    rfl
  | case4 start s hs data rest hlexeme later hlater =>
    simp [scanFrom_of_lexeme? hs hlexeme, hlater, Except.map] at h

/-- Blocks of the end of a text are the blocks of that end by itself, moved behind what stands
before it. -/
lemma exists_scan_of_scanFrom (h : scanFrom start s = .ok bs) :
    ∃ bs₀, scan s = .ok bs₀ ∧ bs = bs₀.map (moved start) := by
  cases hscan : scan s with
  | error offset =>
    have hmoved := scanFrom_add_of_error (n := start) hscan
    rw [Nat.zero_add, h] at hmoved
    exact absurd hmoved (by simp)
  | ok bs₀ =>
    have hmoved := scanFrom_add (n := start) hscan
    rw [Nat.zero_add, h] at hmoved
    exact ⟨bs₀, rfl, Except.ok.inj hmoved⟩

/-- Two texts are scanned one after the other if the first ends at the end of a block. -/
lemma scanFrom_append (h : scanFrom start s = .ok bs)
    (hclosed : ∀ last ∈ bs.getLast?, last.isComment = true ∨ last.data.getLast? = some '\n')
    (hlater : scanFrom (start + s.length) t = .ok later) :
    scanFrom start (s ++ t) = .ok (bs ++ later) := by
  induction start, s using scanFrom.induct generalizing bs with
  | case1 start =>
    rw [scanFrom_nil] at h
    rw [← Except.ok.inj h]
    exact hlater
  | case2 start s hs hnone => simp [scanFrom_of_lexeme?_eq_none hs hnone] at h
  | case3 start s hs data rest hlexeme offset herror =>
    simp [scanFrom_of_lexeme? hs hlexeme, herror, Except.map] at h
  | case4 start s hs data rest hlexeme middle hmiddle ih =>
    rw [scanFrom_of_lexeme? hs hlexeme, hmiddle] at h
    obtain rfl : ⟨start, data⟩ :: middle = bs := Except.ok.inj h
    have hlength : start + s.length = start + data.length + rest.length := by
      rw [← append_of_lexeme? hlexeme, List.length_append, Nat.add_assoc]
    have hgrown : lexeme? (s ++ t) = some (data, rest ++ t) := by
      refine lexeme?_append hs hlexeme fun hnil => ?_
      -- nothing follows the first block, so it is the last one
      subst hnil
      rw [scanFrom_nil] at hmiddle
      have hlast := hclosed ⟨start, data⟩ (by simp [← Except.ok.inj hmiddle])
      exact hlast.imp_left fun hcomment => List.isPrefixOf_iff_prefix.1 hcomment
    rw [hlength] at hlater
    rw [scanFrom_of_lexeme? (by simp [hs]) hgrown, ih hmiddle (fun last hlast => ?_) hlater]
    · rfl
    · refine hclosed last ?_
      cases middle with
      | nil => simp at hlast
      | cons next middle => rwa [List.getLast?_cons_cons]

theorem scan_append (h : scan s = .ok bs)
    (hclosed : ∀ last ∈ bs.getLast?, last.isComment = true ∨ last.data.getLast? = some '\n')
    (hlater : scan t = .ok later) :
    scan (s ++ t) = .ok (bs ++ later.map (moved s.length)) :=
  scanFrom_append h hclosed (by simpa using scanFrom_add (n := s.length) hlater)

end Block

/-! ### Failures at another place -/

/-- Two failures say the same, each with its own place in the outermost document. -/
inductive Failure.Relocated (site site' : Site) : Failure → Failure → Prop where
  /-- A directive of the document itself has failed: this is the location. -/
  | own (problem : Problem) (origin : Option Fault) :
      Relocated site site'
        (.diagnosed (.root { problem := problem, file := some site.file, line := some site.line
                             column := some site.column, trace := [] } origin))
        (.diagnosed (.root { problem := problem, file := some site'.file, line := some site'.line
                             column := some site'.column, trace := [] } origin))
  /-- An included document has failed: the trace ends with this place. -/
  | included (inner : Diagnostic) :
      Relocated site site'
        (.diagnosed (.wrapping
          { inner.report with trace := inner.report.trace ++ [site] } inner))
        (.diagnosed (.wrapping
          { inner.report with trace := inner.report.trace ++ [site'] } inner))
  /-- The failure has no place in any document. -/
  | nowhere (f : Failure) (h : ∀ diagnostic, f ≠ .diagnosed diagnostic) : Relocated site site' f f

/-- Whatever has left a directive as a problem of a document is located. -/
lemma Failure.isLocated_of_leaving {f : Failure} {site : Site} {diagnostic : Diagnostic}
    (h : f.leaving site = .diagnosed diagnostic) : diagnostic.isLocated = true := by
  cases f with
  | diagnosed inner =>
    obtain ⟨left, hleft, hlocated, -⟩ := Compile.leaving_diagnosed inner site
    rw [hleft] at h
    exact Failure.diagnosed.inj h ▸ hlocated
  | fault fault =>
    rw [← Failure.diagnosed.inj h]
    rfl
  | unknownEncoding | brokenCodec | tooDeep => simp [leaving] at h

/-- A failure that leaves a directive at another place says the same there. -/
lemma Failure.relocated_leaving {ctx : Context} {d : Document} {b : Block} {f : Failure}
    (site site' : Site) (h : Compile.IsFresh ctx d b f ∨
      ∀ diagnostic, f = .diagnosed diagnostic → diagnostic.isLocated = true) :
    Relocated site site' (f.leaving site) (f.leaving site') := by
  rcases h with h | h
  · cases h with
    | problem p => exact .own p none
    | refused h =>
      cases h with
      | search | read | decode => exact .own (.general _) (some _)
      | codec | encoding => exact .nowhere _ (by simp [leaving])
  · cases f with
    | diagnosed inner =>
      simp only [leaving, h inner rfl, if_true]
      exact .included inner
    | fault fault => exact .own (.general fault.message) (some fault)
    | unknownEncoding | brokenCodec | tooDeep => exact .nowhere _ (by simp [leaving])

/-! ### Places -/

/-- Text behind an offset does not matter for its position. -/
lemma Position.ofOffset_append {s t : Text} {offset : Nat} (h : offset ≤ s.length) :
    ofOffset (s ++ t) offset = ofOffset s offset := by
  have hbefore : textBefore (s ++ t) offset = textBefore s offset := by
    simp only [textBefore, Int.natCast_nonneg, not_lt_of_ge, if_false, Int.toNat_natCast]
    exact List.take_append_of_le_length h
  simp only [ofOffset, hbefore]

namespace Compile

variable {ctx : Context} {nested : Document → Scope → Run Text} {d : Document} {scope : Scope}
  {b : Block} {n : Nat} {t t' text : Text} {events : List Event} {previous next : Option Block}

/-! ### One block -/

lemma collapses_moved :
    collapses (previous.map (Block.moved n)) (b.moved n) (next.map (Block.moved n))
      = collapses previous b next := by
  cases previous <;> cases next <;> rfl

lemma block_scope_moved :
    (block ctx nested { d with text := t' } scope (b.moved n)).scope
      = (block ctx nested { d with text := t } scope b).scope := by
  rw [block_scope, block_scope]
  rfl

lemma block_moved_of_ok (h : (block ctx nested { d with text := t } scope b).outcome = .ok text) :
    (block ctx nested { d with text := t' } scope (b.moved n)).outcome = .ok text := by
  cases hspecial : b.isSpecial with
  | false =>
    have hmoved : (b.moved n).isSpecial = false := hspecial
    rw [block_of_not_isSpecial hspecial] at h
    rw [block_of_not_isSpecial hmoved]
    exact h
  | true =>
    have hmoved : (b.moved n).isSpecial = true := hspecial
    have hexec : (execute ctx nested { d with text := t } scope b).outcome = .ok text :=
      (block_eq_ok_iff hspecial).1 h
    exact (block_eq_ok_iff hmoved).2 hexec

/-! ### Going on at the seam -/

/-- A place in a document whose blocks stand further back. -/
def Cursor.moved (n : Nat) (c : Cursor) : Cursor :=
  ⟨c.previous.map (Block.moved n), c.rest.map (Block.moved n), c.scope⟩

/-- A place in a document that goes on with more blocks. -/
def Cursor.followedBy (c : Cursor) (more : List Block) : Cursor :=
  ⟨c.previous, c.rest ++ more, c.scope⟩

variable {c c' : Cursor} {bs more : List Block}

/-- What is compiled does not depend on where the blocks stand. -/
lemma Reaches.moved (h : Reaches ctx nested { d with text := t } c text events c') (n : Nat)
    (t' : Text) : ∃ events',
      Reaches ctx nested { d with text := t' } (c.moved n) text events' (c'.moved n) := by
  induction h with
  | here c => exact ⟨[], .here _⟩
  | skip hout _ ih =>
    obtain ⟨events', hreach⟩ := ih
    refine ⟨events', .skip ?_ hreach⟩
    rw [List.head?_map, collapses_moved]
    exact hout
  | @keep previous b rest scope left text events c hin hleft _ ih =>
    obtain ⟨events', hreach⟩ := ih
    have hstep : Reaches ctx nested { d with text := t' }
        ⟨some (b.moved n), rest.map (Block.moved n),
          (block ctx nested { d with text := t' } scope (b.moved n)).scope⟩
        text events' (c.moved n) := by
      rw [block_scope_moved (t := t)]
      exact hreach
    refine ⟨_, .keep ?_ (block_moved_of_ok hleft) hstep⟩
    rw [List.head?_map, collapses_moved]
    exact hin

/-- What is left from some place on does not depend on where the blocks stand. -/
lemma compile_moved_eq_ok_iff (n : Nat) (t' : Text) :
    ((c.moved n).compile ctx nested { d with text := t' }).outcome = .ok text ↔
      (c.compile ctx nested { d with text := t }).outcome = .ok text := by
  cases h : (c.compile ctx nested { d with text := t }).outcome with
  | ok left =>
    obtain ⟨events, previous, scope', hreach⟩ := exists_reaches_of_ok h
    obtain ⟨events', hmoved⟩ := hreach.moved n t'
    rw [Reaches.compile_eq hmoved]
  | error f =>
    -- the block that fails also does at its new place
    obtain ⟨left, events, previous, b, rest, scope', hreach, -, hf⟩ := blocks_eq_error_iff.1 h
    obtain ⟨hspecial, f₀, hf₀, -⟩ := block_eq_error_iff.1 hf
    obtain ⟨events', hmoved⟩ := hreach.moved n t'
    have hspecial' : (b.moved n).isSpecial = true := hspecial
    have hfails : ((c.moved n).compile ctx nested { d with text := t' }).outcome
        = .error (f₀.leaving (siteOf { d with text := t' } (b.moved n).start)) :=
      blocks_eq_error_iff.2 ⟨_, _, _, _, _, _, hmoved, not_collapses_of_isSpecial hspecial',
        block_eq_error_iff.2 ⟨hspecial', f₀, hf₀, rfl⟩⟩
    simp [hfails]

/-- Where some blocks end and others begin, there is not a blank block on the one side and a
definition on the other. -/
def Apart (bs more : List Block) : Prop :=
  ∀ last ∈ bs.getLast?, ∀ first ∈ more.head?,
    ¬ (Text.allBlank last.data = true ∧ first.isDefinition = true) ∧
      ¬ (last.isDefinition = true ∧ Text.allBlank first.data = true)

lemma Apart.moved (h : Apart bs more) (n : Nat) : Apart bs (more.map (Block.moved n)) := by
  intro last hlast first hfirst
  rw [List.head?_map, Option.mem_def, Option.map_eq_some_iff] at hfirst
  obtain ⟨first, hfirst, rfl⟩ := hfirst
  exact h last hlast first hfirst

lemma Apart.of_cons (h : Apart (b :: bs) more) : Apart bs more := by
  intro last hlast
  refine h last ?_
  cases bs with
  | nil => simp at hlast
  | cons next rest => rwa [List.getLast?_cons_cons]

/-- The last block before a seam is left out or not whatever stands behind the seam. -/
lemma Apart.collapses_append (h : Apart (b :: bs) more) :
    collapses previous b (bs ++ more).head? = collapses previous b bs.head? := by
  cases bs with
  | cons next rest => rfl
  | nil =>
    cases more with
    | nil => rfl
    | cons first rest =>
      have hseam := (h b rfl first rfl).1
      cases hblank : Text.allBlank b.data with
      | false => simp [collapses, hblank]
      | true =>
        rw [hblank, eq_self, true_and, Bool.not_eq_true] at hseam
        simp [collapses, hseam]

/-- The first block behind a seam is left out or not whatever stands before the seam. -/
lemma Apart.collapses_getLast? (h : Apart bs (b :: more)) :
    collapses bs.getLast? b next = collapses none b next := by
  cases hlast : bs.getLast? with
  | none => rfl
  | some last =>
    have hseam := (h last hlast b rfl).2
    cases hblank : Text.allBlank b.data with
    | false => simp [collapses, hblank]
    | true =>
      rw [hblank, eq_self, and_true, Bool.not_eq_true] at hseam
      simp [collapses, hseam]

/-- What is compiled up to some place does not depend on what follows all blocks. -/
lemma Reaches.followedBy (h : Reaches ctx nested d c text events c')
    (hapart : Apart c.rest more) :
    Reaches ctx nested d (c.followedBy more) text events (c'.followedBy more) := by
  induction h with
  | here c => exact .here _
  | skip hout _ ih => exact .skip (hapart.collapses_append.trans hout) (ih hapart.of_cons)
  | keep hin hleft _ ih => exact .keep (hapart.collapses_append.trans hin) hleft (ih hapart.of_cons)

/-- What is compiled behind a seam does not depend on the block before it. -/
lemma Reaches.behind (h : Reaches ctx nested d ⟨none, more, scope⟩ text events c')
    (hapart : Apart bs more) : ∃ previous,
      Reaches ctx nested d ⟨bs.getLast?, more, scope⟩ text events
        ⟨previous, c'.rest, c'.scope⟩ := by
  -- only the first block sees the one before the seam
  cases h with
  | here => exact ⟨_, .here _⟩
  | skip hout h => exact ⟨_, .skip (hapart.collapses_getLast?.trans hout) h⟩
  | keep hin hleft h => exact ⟨_, .keep (hapart.collapses_getLast?.trans hin) hleft h⟩

/-- What is compiled behind a block that defines nothing does not depend on it. -/
lemma compile_of_not_isDefinition (h : previous.any (·.isDefinition) = false) :
    (Cursor.mk previous bs scope).compile ctx nested d
      = (Cursor.mk none bs scope).compile ctx nested d := by
  cases bs with
  | nil => rfl
  | cons b rest =>
    have hsame : collapses previous b rest.head? = collapses none b rest.head? := by
      simp [collapses, h]
    simp only [Cursor.compile, blocks, hsame]

/-! ### Two texts and both together -/

variable {a : Text} {as : List Block} {f : Failure} {t₁ t₂ : Text} {scope' : Scope}
  {events₁ events₂ : List Event}

/-- A place in the first text stands in the same line and column of both together. -/
lemma siteOf_append {offset : Nat} (h : offset ≤ a.length) :
    siteOf { d with text := a ++ t } offset = siteOf { d with text := a } offset := by
  simp only [siteOf, Position.ofOffset_append h]

/-- What gets through some of the first text gets as far in both together. -/
lemma Reaches.before_seam
    (h : Reaches ctx nested { d with text := a } ⟨none, as, scope⟩ text events c')
    (hapart : Apart as more) : ∃ events',
      Reaches ctx nested { d with text := a ++ t } ⟨none, as ++ more, scope⟩ text events'
        (c'.followedBy more) := by
  have hzero : ∀ c : Cursor, c.moved 0 = c := by
    rintro ⟨previous, rest, scope⟩
    have hid : Block.moved 0 = id := rfl
    simp [Cursor.moved, hid]
  obtain ⟨events', hreach⟩ := h.moved 0 (a ++ t)
  rw [hzero, hzero] at hreach
  exact ⟨events', hreach.followedBy hapart⟩

/-- What gets through the first text and through some of the second one gets as far in both
together. -/
lemma Reaches.over_seam
    (h₁ : Reaches ctx nested { d with text := a } ⟨none, as, scope⟩ t₁ events₁
      ⟨previous, [], scope'⟩)
    (h₂ : Reaches ctx nested { d with text := t } ⟨none, bs, scope'⟩ t₂ events₂ c')
    (hapart : Apart as bs) : ∃ events p,
      Reaches ctx nested { d with text := a ++ t }
        ⟨none, as ++ bs.map (Block.moved a.length), scope⟩ (t₁ ++ t₂) events
        ⟨p, c'.rest.map (Block.moved a.length), c'.scope⟩ := by
  obtain ⟨before, hbefore, hprevious⟩ := h₁.previous_eq
  have hall : as = before := by simpa using hbefore
  have hlast : previous = as.getLast? := by simpa [hall] using hprevious
  obtain ⟨events₁', hfirst⟩ := h₁.before_seam (t := t) (hapart.moved a.length)
  obtain ⟨events₂', hsecond⟩ := h₂.moved a.length (a ++ t)
  obtain ⟨p, hbehind⟩ := Reaches.behind hsecond (hapart.moved a.length)
  rw [← hlast] at hbehind
  exact ⟨_, p, hfirst.trans hbehind⟩

/-- Where the first text fails, both together fail alike. -/
lemma documentWith_append_of_error (ha : Block.scan a = .ok as)
    (hwhole : Block.scan (a ++ t) = .ok (as ++ more)) (hapart : Apart as more)
    (h : (documentWith ctx nested { d with text := a } scope).outcome = .error f) :
    (documentWith ctx nested { d with text := a ++ t } scope).outcome = .error f := by
  rw [(documentWith_of_scan_ok ha).1] at h
  obtain ⟨text, events, previous, b, rest, scope', hreach, hin, hf⟩ := blocks_eq_error_iff.1 h
  obtain ⟨hspecial, f₀, hf₀, rfl⟩ := block_eq_error_iff.1 hf
  obtain ⟨before, hbefore⟩ := hreach.exists_before
  have hsplit : as = before ++ b :: rest := hbefore
  -- the failing block stands in the first text, where the other one does not move its place
  have hstart : b.start ≤ a.length := by
    rw [Block.start_of_scan (hsplit ▸ ha), ← Block.flatMap_data_of_scan ha, hsplit,
      List.flatMap_append, List.length_append]
    omega
  obtain ⟨events', hreach'⟩ := hreach.before_seam (t := t) hapart
  rw [(documentWith_of_scan_ok hwhole).1, blocks_eq_error_iff]
  refine ⟨_, _, _, _, _, _, hreach', not_collapses_of_isSpecial hspecial, ?_⟩
  exact block_eq_error_iff.2 ⟨hspecial, f₀, hf₀, by rw [siteOf_append hstart]⟩

/-- Where both texts leave something, both together leave the one and then the other. -/
lemma documentWith_append_of_ok (ha : Block.scan a = .ok as) (hb : Block.scan t = .ok bs)
    (hwhole : Block.scan (a ++ t) = .ok (as ++ bs.map (Block.moved a.length)))
    (hapart : Apart as bs)
    (h₁ : (documentWith ctx nested { d with text := a } scope).outcome = .ok t₁)
    (h₂ : (documentWith ctx nested { d with text := t }
      (documentWith ctx nested { d with text := a } scope).scope).outcome = .ok t₂) :
    (documentWith ctx nested { d with text := a ++ t } scope).outcome = .ok (t₁ ++ t₂) := by
  rw [(documentWith_of_scan_ok ha).1] at h₁
  obtain ⟨events₁, previous, scope', hfirst⟩ := exists_reaches_of_ok h₁
  rw [(documentWith_of_scan_ok ha).2, hfirst.compile_eq, (documentWith_of_scan_ok hb).1] at h₂
  obtain ⟨events₂, previous', scope'', hsecond⟩ := exists_reaches_of_ok h₂
  obtain ⟨events, p, hreach⟩ := hfirst.over_seam hsecond hapart
  rw [(documentWith_of_scan_ok hwhole).1, Reaches.compile_eq hreach]

/-- Where only the second text fails, both together fail at the same directive. -/
lemma documentWith_append_of_error_behind (ha : Block.scan a = .ok as)
    (hb : Block.scan t = .ok bs)
    (hwhole : Block.scan (a ++ t) = .ok (as ++ bs.map (Block.moved a.length)))
    (hapart : Apart as bs)
    (h₁ : (documentWith ctx nested { d with text := a } scope).outcome = .ok t₁)
    (h₂ : (documentWith ctx nested { d with text := t }
      (documentWith ctx nested { d with text := a } scope).scope).outcome = .error f) :
    ∃ b scope' f₀, b ∈ bs ∧
      Executes ctx nested { d with text := t }
        (documentWith ctx nested { d with text := a } scope).scope b scope' ∧
      (execute ctx nested { d with text := t } scope' b).outcome = .error f₀ ∧
      f = f₀.leaving (siteOf { d with text := t } b.start) ∧
      (documentWith ctx nested { d with text := a ++ t } scope).outcome
        = .error (f₀.leaving (siteOf { d with text := a ++ t } (b.start + a.length))) := by
  rw [(documentWith_of_scan_ok ha).1] at h₁
  obtain ⟨events₁, previous, scope', hfirst⟩ := exists_reaches_of_ok h₁
  have hscope : (documentWith ctx nested { d with text := a } scope).scope = scope' := by
    rw [(documentWith_of_scan_ok ha).2, hfirst.compile_eq]
  rw [hscope] at h₂ ⊢
  rw [(documentWith_of_scan_ok hb).1, blocks_eq_error_iff] at h₂
  obtain ⟨t₂, events₂, previous', b, rest, scope'', hsecond, hin, hf⟩ := h₂
  obtain ⟨hspecial, f₀, hf₀, rfl⟩ := block_eq_error_iff.1 hf
  obtain ⟨before, hbefore⟩ := hsecond.exists_before
  have hsplit : bs = before ++ b :: rest := hbefore
  obtain ⟨events, p, hreach⟩ := hfirst.over_seam hsecond hapart
  refine ⟨b, scope'', f₀, by simp [hsplit],
    ⟨hspecial, bs, t₂, events₂, previous', rest, hb, hsecond, hin⟩, hf₀, rfl, ?_⟩
  have hmoved : (b.moved a.length).isSpecial = true := hspecial
  rw [(documentWith_of_scan_ok hwhole).1, blocks_eq_error_iff]
  exact ⟨_, _, _, _, _, _, hreach, not_collapses_of_isSpecial hmoved,
    block_eq_error_iff.2 ⟨hmoved, f₀, hf₀, rfl⟩⟩

/-- A directive of a document fails by itself, or with a failure that is located. -/
lemma isFresh_or_isLocated_of_executes {depth : Nat} {f₀ : Failure}
    (hexec : Executes ctx (nestedWithin ctx depth) d scope b scope')
    (h : (execute ctx (nestedWithin ctx depth) d scope' b).outcome = .error f₀) :
    IsFresh ctx d b f₀ ∨
      ∀ diagnostic, f₀ = .diagnosed diagnostic → diagnostic.isLocated = true := by
  rcases execute_eq_error_of_executes hexec h with hfresh | ⟨d', -, hf₀⟩
  · exact Or.inl hfresh
  · refine Or.inr fun diagnostic hdiagnostic => ?_
    cases depth with
    | zero =>
      obtain rfl : Failure.tooDeep = f₀ := Except.error.inj hf₀
      simp at hdiagnostic
    | succ depth =>
      rcases within_succ_eq_error hf₀ with ⟨offset, -, rfl⟩ | ⟨b, scope', f₁, -, -, -, rfl⟩ |
        ⟨b, d', scope', f₁, -, -, rfl⟩
      · rw [← Failure.diagnosed.inj hdiagnostic]
        rfl
      · exact Failure.isLocated_of_leaving hdiagnostic
      · exact Failure.isLocated_of_leaving hdiagnostic

/-- A text that ends with a comment or a newline, and another text behind it, are scanned and
compiled one after the other, unless a blank block on the one side of the seam meets a
definition on the other.  Both together succeed exactly if the first text does, and the second
one does with the variables at the end of the first; they leave what the one and then the other
leaves.  They fail as the first text does, or else at the directive at which the second one
does, saying the same from another place. -/
theorem document_append (ctx : Context) (d : Document) (scope : Scope) (a b : Text)
    (as bs : List Block) (ha : Block.scan a = .ok as) (hb : Block.scan b = .ok bs)
    (hclosed : ∀ last ∈ as.getLast?, last.isComment = true ∨ last.data.getLast? = some '\n')
    (hapart : Apart as bs) :
    Block.scan (a ++ b) = .ok (as ++ bs.map (Block.moved a.length)) ∧
      (∀ text, (document ctx { d with text := a ++ b } scope).outcome = .ok text ↔
        ∃ t₁ t₂, (document ctx { d with text := a } scope).outcome = .ok t₁ ∧
          (document ctx { d with text := b }
            (document ctx { d with text := a } scope).scope).outcome = .ok t₂ ∧
          text = t₁ ++ t₂) ∧
      (∀ f, (document ctx { d with text := a } scope).outcome = .error f →
        (document ctx { d with text := a ++ b } scope).outcome = .error f) ∧
      ∀ t₁ f, (document ctx { d with text := a } scope).outcome = .ok t₁ →
        (document ctx { d with text := b }
          (document ctx { d with text := a } scope).scope).outcome = .error f →
        ∃ block ∈ bs, ∃ f', (document ctx { d with text := a ++ b } scope).outcome = .error f' ∧
          Failure.Relocated (siteOf { d with text := b } block.start)
            (siteOf { d with text := a ++ b } (block.start + a.length)) f f' := by
  have hwhole := Block.scan_append ha hclosed hb
  have herror : ∀ f, (document ctx { d with text := a } scope).outcome = .error f →
      (document ctx { d with text := a ++ b } scope).outcome = .error f := fun f h =>
    documentWith_append_of_error ha hwhole (hapart.moved a.length) h
  have hbehind : ∀ t₁ f, (document ctx { d with text := a } scope).outcome = .ok t₁ →
      (document ctx { d with text := b }
        (document ctx { d with text := a } scope).scope).outcome = .error f →
      ∃ block ∈ bs, ∃ f', (document ctx { d with text := a ++ b } scope).outcome = .error f' ∧
        Failure.Relocated (siteOf { d with text := b } block.start)
          (siteOf { d with text := a ++ b } (block.start + a.length)) f f' := by
    intro t₁ f h₁ h₂
    obtain ⟨block, scope', f₀, hblock, hexec, hf₀, rfl, hf'⟩ :=
      documentWith_append_of_error_behind ha hb hwhole hapart h₁ h₂
    exact ⟨block, hblock, _, hf', Failure.relocated_leaving _ _
      (isFresh_or_isLocated_of_executes hexec hf₀)⟩
  have hok : ∀ t₁ t₂, (document ctx { d with text := a } scope).outcome = .ok t₁ →
      (document ctx { d with text := b }
        (document ctx { d with text := a } scope).scope).outcome = .ok t₂ →
      (document ctx { d with text := a ++ b } scope).outcome = .ok (t₁ ++ t₂) := fun t₁ t₂ h₁ h₂ =>
    documentWith_append_of_ok ha hb hwhole hapart h₁ h₂
  refine ⟨hwhole, fun text => ⟨fun h => ?_, ?_⟩, herror, hbehind⟩
  · -- each text leaves something, since otherwise both together fail
    cases h₁ : (document ctx { d with text := a } scope).outcome with
    | error f => simp [herror f h₁] at h
    | ok t₁ =>
      cases h₂ : (document ctx { d with text := b }
          (document ctx { d with text := a } scope).scope).outcome with
      | error f =>
        obtain ⟨-, -, f', hf', -⟩ := hbehind t₁ f h₁ h₂
        simp [hf'] at h
      | ok t₂ =>
        rw [hok t₁ t₂ h₁ h₂] at h
        exact ⟨t₁, t₂, rfl, rfl, (Except.ok.inj h).symm⟩
  · rintro ⟨t₁, t₂, h₁, h₂, rfl⟩
    exact hok t₁ t₂ h₁ h₂

/-- A definition line, and behind it a line whose include fails in the file that it names. -/
theorem document_append_of_nested_failure :
    let m : MemoryStore :=
      ⟨[("/site/c.kit".toList, Encoding.utf8Bytes "c <!--$m-->".toList)], []⟩
    let ctx : Context := ⟨m.toStore, {}, "/site".toList, Codec.builtIn⟩
    let d : Document :=
      { text := [], file := "/site/a.kit".toList, rootDir := "/site".toList, parents := [] }
    let a : Text := "<!--$n=1-->\n".toList
    let b : Text := "x <!--@include c-->".toList
    let as : List Block := [⟨0, "<!--$n=1-->".toList⟩, ⟨11, "\n".toList⟩]
    let bs : List Block := [⟨0, "x ".toList⟩, ⟨2, "<!--@include c-->".toList⟩]
    let inner : Diagnostic := .root
      { problem := .undefinedVariable "m".toList, file := some "/site/c.kit".toList
        line := some 1, column := some 3, trace := [] } none
    let failure (line : Nat) : Failure := .diagnosed (.wrapping
      { inner.report with trace := [⟨"/site/a.kit".toList, line, 3⟩] } inner)
    Block.scan (a ++ b) = .ok (as ++ bs.map (Block.moved a.length)) ∧
      (document ctx { d with text := a } .empty).outcome = .ok [] ∧
      (document ctx { d with text := b }
        (document ctx { d with text := a } .empty).scope).outcome = .error (failure 1) ∧
      ∃ block ∈ bs, ∃ f', (document ctx { d with text := a ++ b } .empty).outcome = .error f' ∧
        Failure.Relocated (siteOf { d with text := b } block.start)
          (siteOf { d with text := a ++ b } (block.start + a.length)) (failure 1) f' := by
  intro m ctx d a b as bs inner failure
  have ha : Block.scan a = .ok as := by decide +kernel
  have hb : Block.scan b = .ok bs := by decide +kernel
  have hclosed : ∀ last ∈ as.getLast?,
      last.isComment = true ∨ last.data.getLast? = some '\n' := by decide
  have hapart : Apart as bs := by
    unfold Apart
    decide
  obtain ⟨hscan, -, -, hbehind⟩ := document_append ctx d .empty a b as bs ha hb hclosed hapart
  have h₁ : (document ctx { d with text := a } .empty).outcome = .ok [] := by decide +kernel
  have h₂ : (document ctx { d with text := b }
      (document ctx { d with text := a } .empty).scope).outcome = .error (failure 1) := by
    decide +kernel
  exact ⟨hscan, h₁, h₂, hbehind [] (failure 1) h₁ h₂⟩

end Compile

end CommentMarkup
