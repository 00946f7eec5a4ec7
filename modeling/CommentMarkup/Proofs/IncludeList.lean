/-
# Includes of several files

An include of several files does what includes of the single files do, one after the other, and
puts a newline between what they leave.  It finds all files before it loads the first one, so it
may fail in another way than they do; but it fails exactly if one of them does.

In a document, the comment of such an include can be taken out and the comments of the single
includes put in its place, each on a line of its own.  The text around it is cut into the same
blocks then (`scanFrom_replace`), since it is cut at comments anyway.  No blank block of it is
left out because of the new comments, and neither are the newlines between them, since an include
is not a definition (`documentWith_lines_eq_ok_iff`).  So the document compiles to the same
(`inclusion_of_list`).
-/
import CommentMarkup.Proofs.Partition
import CommentMarkup.Proofs.Seam
import CommentMarkup.Proofs.WrittenDirective

namespace CommentMarkup

/-! ### The single includes -/

/-- Comments that include some files one by one, each on a line of its own. -/
def inclusionLines (base64 : Bool) (specs : List Text) : Text :=
  List.intercalate ['\n'] (specs.map fun spec => inclusionComment base64 [spec])

/-- The blocks of such comments. -/
def inclusionBlocks (base64 : Bool) : Nat → List Text → List Block
  | _, [] => []
  | start, [spec] => [⟨start, inclusionComment base64 [spec]⟩]
  | start, spec :: next :: rest =>
    let line := inclusionComment base64 [spec]
    ⟨start, line⟩ :: ⟨start + line.length, ['\n']⟩ ::
      inclusionBlocks base64 (start + line.length + 1) (next :: rest)

lemma inclusionLines_cons (base64 : Bool) (spec next : Text) (rest : List Text) :
    inclusionLines base64 (spec :: next :: rest)
      = inclusionComment base64 [spec] ++ ('\n' :: inclusionLines base64 (next :: rest)) := by
  simp [inclusionLines, List.intercalate_cons_cons]

lemma opening_prefix_inclusionLines (base64 : Bool) {specs : List Text} (hne : specs ≠ []) :
    commentOpening <+: inclusionLines base64 specs := by
  cases specs with
  | nil => exact absurd rfl hne
  | cons spec rest =>
    have hcomment : commentOpening <+: inclusionComment base64 [spec] := opening_prefix_comment _
    cases rest with
    | nil => simpa [inclusionLines] using hcomment
    | cons next rest =>
      rw [inclusionLines_cons]
      exact hcomment.trans (List.prefix_append _ _)

/-! ### Marks in a list -/

/-- A file that can be included together with others in one comment can be included by itself. -/
lemma isWholeComment_of_mem {base64 : Bool} {specs : List Text}
    (h : Block.IsWholeComment (inclusionComment base64 specs)) {s : Text} (hs : s ∈ specs) :
    Block.IsWholeComment (inclusionComment base64 [s]) := by
  rw [inclusionComment, isWholeComment_comment_iff] at h ⊢
  intro hclosing
  have hlist : s <:+: List.intercalate [',', ' '] specs := infix_intercalate_of_mem hs
  have hmem : s <:+: inclusionBody base64 specs :=
    hlist.trans ⟨inclusionWord base64 ++ [' '], [], by simp [inclusionBody]⟩
  rw [inclusionBody, List.intercalate_singleton] at hclosing
  rcases infix_of_infix_append_cons (by decide) hclosing with hword | hspec
  · have hnot : ¬ commentClosing <:+: inclusionWord base64 := by
      cases base64 <;> decide
    exact hnot hword
  · exact h (hspec.trans hmem)

/-! ### Another end of a text -/

namespace Block

variable {start : Nat} {s t : Text} {b : Block} {before after later : List Block}

/-- What stands behind some blocks is scanned as the blocks behind them. -/
lemma scanFrom_behind (h : scanFrom start s = .ok (before ++ after)) :
    scanFrom (start + (before.flatMap Block.data).length) (after.flatMap Block.data)
      = .ok after := by
  induction before generalizing start s with
  | nil =>
    rw [List.nil_append] at h
    rw [flatMap_data_of_scanFrom h]
    exact h
  | cons c before ih =>
    obtain ⟨rfl, rest, -, -, hrest⟩ := exists_isLexeme_of_scanFrom h
    have hlater := ih hrest
    rwa [stop, Nat.add_assoc, ← List.length_append, ← List.flatMap_cons] at hlater

/-- Another text that begins with a comment can stand where a comment stands: the blocks before
it stay as they are. -/
lemma scanFrom_replace (h : scanFrom start s = .ok (before ++ b :: after))
    (hopen : commentOpening <+: t) (hlater : scanFrom b.start t = .ok later) :
    scanFrom start (before.flatMap Block.data ++ t) = .ok (before ++ later) := by
  induction before generalizing start s with
  | nil =>
    obtain ⟨hstart, -⟩ := exists_isLexeme_of_scanFrom h
    rw [hstart] at hlater
    exact hlater
  | cons c before ih =>
    obtain ⟨rfl, rest, -, hlexeme, hrest⟩ := exists_isLexeme_of_scanFrom h
    have hmore : IsLexeme c.data (before.flatMap Block.data ++ t) := by
      rcases id hlexeme with hcomment | ⟨hne, hlit, -⟩
      · exact .comment hcomment
      · refine .literal hne hlit ?_
        by_cases hline : c.data.getLast? = some '\n'
        · exact Or.inl hline
        · -- the literal goes on up to a comment, which is still there, or to the new one
          refine Or.inr (Or.inr ?_)
          cases before with
          | nil => exact hopen
          | cons next before =>
            have hnext := isWholeComment_of_scanFrom hlexeme hlit hline hrest next rfl
            rw [List.flatMap_cons, List.append_assoc]
            exact hnext.opens.trans (List.prefix_append _ _)
    have hall := scanFrom_append_of_isLexeme hmore (ih hrest)
    rwa [← List.append_assoc, ← List.flatMap_cons] at hall

/-- The single includes are scanned before what follows them. -/
lemma scanFrom_inclusionLines {base64 : Bool} {specs : List Text} (hne : specs ≠ [])
    (hspecs : ∀ spec ∈ specs, IsWholeComment (inclusionComment base64 [spec]))
    (h : scanFrom (start + (inclusionLines base64 specs).length) t = .ok later) :
    scanFrom start (inclusionLines base64 specs ++ t)
      = .ok (inclusionBlocks base64 start specs ++ later) := by
  induction specs generalizing start with
  | nil => exact absurd rfl hne
  | cons spec rest ih =>
    have hline : ∀ more, IsLexeme (inclusionComment base64 [spec]) more := fun _ =>
      .comment (hspecs spec List.mem_cons_self)
    cases rest with
    | nil =>
      have hlines : inclusionLines base64 [spec] = inclusionComment base64 [spec] := by
        simp [inclusionLines]
      rw [hlines] at h ⊢
      exact scanFrom_append_of_isLexeme (hline t) h
    | cons next rest =>
      have hnewline : ∀ more, IsLexeme ['\n'] more := fun _ =>
        .literal (by simp) (isLiteral_singleton '\n') (Or.inl rfl)
      rw [inclusionLines_cons] at h ⊢
      rw [List.length_append, List.length_cons, ← Nat.add_assoc, ← Nat.add_assoc,
        Nat.add_right_comm] at h
      have hrest := ih (List.cons_ne_nil _ _)
        (fun s hs => hspecs s (List.mem_cons_of_mem _ hs)) h
      rw [List.append_assoc]
      exact scanFrom_append_of_isLexeme (hline _)
        (scanFrom_append_of_isLexeme (hnewline _) hrest)

end Block

/-! ### What an include leaves -/

/-- Two relations between lists, item by item, are one. -/
lemma forall₂_comp_iff {α β γ : Type} {R : α → β → Prop} {S : β → γ → Prop} {as : List α}
    {cs : List γ} :
    (∃ bs, List.Forall₂ R as bs ∧ List.Forall₂ S bs cs) ↔
      List.Forall₂ (fun a c => ∃ b, R a b ∧ S b c) as cs := by
  constructor
  · rintro ⟨bs, hR, hS⟩
    induction hR generalizing cs with
    | nil =>
      cases hS
      exact .nil
    | cons hfirst _ ih =>
      cases hS with
      | cons hsecond hrest => exact .cons ⟨_, hfirst, hsecond⟩ (ih hrest)
  · intro h
    induction h with
    | nil => exact ⟨[], .nil, .nil⟩
    | cons hfirst _ ih =>
      obtain ⟨b, hR, hS⟩ := hfirst
      obtain ⟨bs, hRs, hSs⟩ := ih
      exact ⟨b :: bs, .cons hR hRs, .cons hS hSs⟩

namespace Compile

variable {ctx : Context} {nested : Document → Scope → Run Text} {d : Document}
  {scope : Scope} {base64 : Bool} {spec : Text} {specs : List Text} {text t t' : Text}
  {start : Nat} {previous : Option Block} {b : Block} {before rest later xs ys : List Block}

/-- An include succeeds if every file it lists is named, found and loaded. -/
lemma inclusion_eq_ok_iff :
    (inclusion ctx nested d scope specs base64).outcome = .ok text ↔
      specs ≠ [] ∧ [] ∉ specs ∧ ∃ texts,
        List.Forall₂ (fun spec t => ∃ path, (Include.resolve ctx d spec).outcome = .ok path ∧
          (load ctx nested d scope base64 path).outcome = .ok t) specs texts ∧
        text = List.intercalate ['\n'] texts := by
  unfold inclusion
  cases hspecs : (specs.isEmpty || specs.any List.isEmpty) with
  | true =>
    simp only [if_true, Run.outcome_fail, reduceCtorEq, false_iff]
    rintro ⟨hne, hnamed, -⟩
    rw [Include.named_iff.2 ⟨hne, hnamed⟩] at hspecs
    exact Bool.false_ne_true hspecs
  | false =>
    obtain ⟨hne, hnamed⟩ := Include.named_iff.1 hspecs
    simp only [Bool.false_eq_true, if_false, Run.bind_eq_ok_iff, Run.forEach_eq_ok_iff,
      Run.outcome_pure, Except.ok.injEq, ← forall₂_comp_iff]
    constructor
    · rintro ⟨paths, hpaths, texts, htexts, rfl⟩
      exact ⟨hne, hnamed, texts, ⟨paths, hpaths, htexts⟩, rfl⟩
    · rintro ⟨-, -, texts, ⟨paths, hpaths, htexts⟩, rfl⟩
      exact ⟨paths, hpaths, texts, htexts, rfl⟩

/-- An include of one file succeeds if the file is named, found and loaded. -/
lemma inclusion_singleton_eq_ok_iff :
    (inclusion ctx nested d scope [spec] base64).outcome = .ok text ↔
      spec ≠ [] ∧ ∃ path, (Include.resolve ctx d spec).outcome = .ok path ∧
        (load ctx nested d scope base64 path).outcome = .ok text := by
  rw [inclusion_eq_ok_iff]
  simp only [List.forall₂_cons_left_iff, List.forall₂_nil_left_iff]
  constructor
  · rintro ⟨-, hnamed, texts, ⟨t, rest, hload, rfl, rfl⟩, rfl⟩
    rw [List.intercalate_singleton]
    exact ⟨fun hnil => hnamed (by simp [hnil]), hload⟩
  · rintro ⟨hnamed, hload⟩
    exact ⟨by simp, by simpa using Ne.symm hnamed, [text], ⟨text, [], hload, rfl, rfl⟩, by simp⟩

/-- An include of several files succeeds if the single includes do, and leaves what they
leave. -/
lemma inclusion_eq_ok_iff_single (hspecs : specs ≠ []) :
    (inclusion ctx nested d scope specs base64).outcome = .ok text ↔
      ∃ texts, List.Forall₂ (fun spec t =>
          (inclusion ctx nested d scope [spec] base64).outcome = .ok t) specs texts ∧
        text = List.intercalate ['\n'] texts := by
  have hmem : [] ∉ specs ↔ ∀ spec ∈ specs, spec ≠ [] :=
    ⟨fun h spec hspec hnil => h (hnil ▸ hspec), fun h hmem => h [] hmem rfl⟩
  simp only [inclusion_singleton_eq_ok_iff, List.forall₂_and_left]
  rw [inclusion_eq_ok_iff, hmem]
  constructor
  · rintro ⟨-, hnamed, texts, htexts, rfl⟩
    exact ⟨texts, ⟨hnamed, htexts⟩, rfl⟩
  · rintro ⟨texts, ⟨hnamed, htexts⟩, rfl⟩
    exact ⟨hspecs, hnamed, texts, htexts, rfl⟩

/-- An include of several files succeeds if one of the first file and one of the others do. -/
lemma inclusion_cons_eq_ok_iff {next : Text} {rest : List Text} :
    (inclusion ctx nested d scope (spec :: next :: rest) base64).outcome = .ok text ↔
      ∃ first more, (inclusion ctx nested d scope [spec] base64).outcome = .ok first ∧
        (inclusion ctx nested d scope (next :: rest) base64).outcome = .ok more ∧
        text = first ++ '\n' :: more := by
  simp only [inclusion_eq_ok_iff_single (List.cons_ne_nil next rest)]
  rw [inclusion_eq_ok_iff_single (List.cons_ne_nil _ _)]
  constructor
  · rintro ⟨texts, htexts, rfl⟩
    obtain ⟨first, more, hfirst, hmore, rfl⟩ := List.forall₂_cons_left_iff.1 htexts
    obtain ⟨second, others, -, -, rfl⟩ := List.forall₂_cons_left_iff.1 hmore
    refine ⟨first, _, hfirst, ⟨second :: others, hmore, rfl⟩, ?_⟩
    simp [List.intercalate_cons_cons]
  · rintro ⟨first, more, hfirst, ⟨texts, htexts, rfl⟩, rfl⟩
    refine ⟨first :: texts, .cons hfirst htexts, ?_⟩
    obtain ⟨second, others, -, -, rfl⟩ := List.forall₂_cons_left_iff.1 htexts
    simp [List.intercalate_cons_cons]

/-! ### Blocks in a place -/

/-- What is compiled from a block on is what it leaves, unless it is left out, and what the
others leave. -/
lemma compile_cons_eq_ok_iff :
    ((Cursor.mk previous (b :: rest) scope).compile ctx nested d).outcome = .ok text ↔
      (collapses previous b rest.head? = true ∧
        ((Cursor.mk (some b) rest scope).compile ctx nested d).outcome = .ok text) ∨
      (collapses previous b rest.head? = false ∧ ∃ left more,
        (block ctx nested d scope b).outcome = .ok left ∧
        ((Cursor.mk (some b) rest (block ctx nested d scope b).scope).compile ctx nested
          d).outcome = .ok more ∧ text = left ++ more) := by
  cases hc : collapses previous b rest.head? with
  | true => simp [compile_skip hc]
  | false =>
    cases hb : (block ctx nested d scope b).outcome with
    | error f => simp [compile_stop hc hb, hb]
    | ok left => simp [compile_keep hc hb, goOn_eq_ok_iff]

lemma block_eq_ok_of_text (h : (block ctx nested { d with text := t } scope b).outcome = .ok text)
    (t' : Text) : (block ctx nested { d with text := t' } scope b).outcome = .ok text :=
  block_moved_of_ok (n := 0) h

/-- Blocks that are compiled to the same everywhere are so behind any others. -/
lemma compile_append_eq_ok
    (hfirst : xs.head?.any (·.isDefinition) = ys.head?.any (·.isDefinition))
    (h : ∀ previous scope text,
      ((Cursor.mk previous xs scope).compile ctx nested { d with text := t }).outcome = .ok text →
      ((Cursor.mk previous ys scope).compile ctx nested { d with text := t' }).outcome = .ok text)
    (hxs : ((Cursor.mk previous (before ++ xs) scope).compile ctx nested
      { d with text := t }).outcome = .ok text) :
    ((Cursor.mk previous (before ++ ys) scope).compile ctx nested
      { d with text := t' }).outcome = .ok text := by
  induction before generalizing previous scope text with
  | nil => exact h previous scope text hxs
  | cons b before ih =>
    -- the last block before them only sees whether they begin with a definition
    have hsame : collapses previous b (before ++ xs).head?
        = collapses previous b (before ++ ys).head? := by
      cases before with
      | nil => simp [collapses, hfirst]
      | cons next before => rfl
    rw [List.cons_append, compile_cons_eq_ok_iff] at hxs ⊢
    rw [← hsame]
    rcases hxs with ⟨hout, hlater⟩ | ⟨hin, left, more, hleft, hlater, rfl⟩
    · exact Or.inl ⟨hout, ih hlater⟩
    · have hscope : (block ctx nested { d with text := t' } scope b).scope
          = (block ctx nested { d with text := t } scope b).scope :=
        block_scope_moved (n := 0)
      refine Or.inr ⟨hin, left, more, block_eq_ok_of_text hleft t', ?_, rfl⟩
      rw [hscope]
      exact ih hlater

/-! ### The lines in a document -/

lemma isDefinition_of_inclusion (h : b.directive = .inclusion specs base64) :
    b.isDefinition = false := by
  simp [Block.isDefinition, h]

/-- What is compiled from an include on. -/
lemma compile_inclusion_cons (hspecial : b.isSpecial = true)
    (h : b.directive = .inclusion specs base64) :
    ((Cursor.mk previous (b :: rest) scope).compile ctx nested d).outcome = .ok text ↔
      ∃ left more, (inclusion ctx nested d scope specs base64).outcome = .ok left ∧
        ((Cursor.mk none rest scope).compile ctx nested d).outcome = .ok more ∧
        text = left ++ more := by
  have hin : collapses previous b rest.head? = false := not_collapses_of_isSpecial hspecial
  have hscope : (block ctx nested d scope b).scope = scope := by
    refine block_scope_of_definition?_eq_none ?_
    rw [Block.definition?_of_isSpecial hspecial, h]
    rfl
  have hbehind : (some b).any (·.isDefinition) = false := isDefinition_of_inclusion h
  have hleft : ∀ left, (block ctx nested d scope b).outcome = .ok left ↔
      (inclusion ctx nested d scope specs base64).outcome = .ok left := by
    intro left
    rw [block_eq_ok_iff hspecial, execute_outcome, h]
    rfl
  rw [compile_cons_eq_ok_iff, hscope, compile_of_not_isDefinition hbehind]
  simp [hin, hleft]

/-- The newline between two includes stays. -/
lemma compile_newline_cons (hrest : rest.head?.any (·.isDefinition) = false) :
    ((Cursor.mk none (⟨start, ['\n']⟩ :: rest) scope).compile ctx nested d).outcome = .ok text ↔
      ∃ more, ((Cursor.mk none rest scope).compile ctx nested d).outcome = .ok more ∧
        text = '\n' :: more := by
  have hplain : (Block.mk start ['\n']).isSpecial = false := by
    simp [Block.isSpecial, Block.isComment, commentOpening, List.isPrefixOf]
  have hin : collapses none ⟨start, ['\n']⟩ rest.head? = false := by
    simp [collapses, hrest]
  have hbehind : (some (Block.mk start ['\n'])).any (·.isDefinition) = false := by
    simp [Block.isDefinition, hplain]
  rw [compile_cons_eq_ok_iff, block_of_not_isSpecial hplain, compile_of_not_isDefinition hbehind]
  simp [hin]

/-- Includes of single files that are listed. -/
lemma exists_directive_of_line (base64 : Bool) (start : Nat) (hspec : spec = [] ∨ IsSpec spec) :
    ∃ specs, (Block.mk start (inclusionComment base64 [spec])).directive = .inclusion specs base64 ∧
      ∀ (ctx : Context) nested d scope,
        inclusion ctx nested d scope specs base64 = inclusion ctx nested d scope [spec] base64 := by
  rcases hspec with rfl | hspec
  · -- no file is listed where the name is empty, which fails alike
    refine ⟨[], ?_, fun _ _ _ _ => rfl⟩
    cases base64 <;> rfl
  · refine ⟨[spec], Block.directive_inclusionComment ?_ (List.cons_ne_nil _ _), fun _ _ _ _ => rfl⟩
    simpa using hspec

lemma head?_inclusionBlocks (base64 : Bool) (start : Nat) (hspecs : ∀ spec ∈ specs,
    spec = [] ∨ IsSpec spec) (hne : specs ≠ []) (later : List Block) :
    (inclusionBlocks base64 start specs ++ later).head?.any (·.isDefinition) = false := by
  cases specs with
  | nil => exact absurd rfl hne
  | cons spec rest =>
    have hline : (Block.mk start (inclusionComment base64 [spec])).isDefinition = false := by
      rcases hspecs spec List.mem_cons_self with rfl | hspec
      · cases base64 <;> rfl
      · exact isDefinition_of_inclusion
          (Block.directive_inclusionComment (by simpa using hspec) (List.cons_ne_nil _ _))
    cases rest with
    | nil => simpa [inclusionBlocks] using hline
    | cons next rest => simpa [inclusionBlocks] using hline

/-- What is compiled from the lines of some single includes on. -/
lemma compile_inclusionBlocks (hspecs : ∀ spec ∈ specs, spec = [] ∨ IsSpec spec)
    (hne : specs ≠ []) :
    ((Cursor.mk previous (inclusionBlocks base64 start specs ++ later) scope).compile ctx nested
        d).outcome = .ok text ↔
      ∃ left more, (inclusion ctx nested d scope specs base64).outcome = .ok left ∧
        ((Cursor.mk none later scope).compile ctx nested d).outcome = .ok more ∧
        text = left ++ more := by
  induction specs generalizing start previous text with
  | nil => exact absurd rfl hne
  | cons spec rest ih =>
    have hspecial := Block.isSpecial_inclusionComment start base64 [spec]
    obtain ⟨listed, hdirective, hsame⟩ :=
      exists_directive_of_line base64 start (hspecs spec List.mem_cons_self)
    cases rest with
    | nil => rw [inclusionBlocks, List.singleton_append, compile_inclusion_cons hspecial hdirective,
        hsame]
    | cons next rest =>
      have hrest : ∀ spec ∈ next :: rest, spec = [] ∨ IsSpec spec :=
        fun s hs => hspecs s (List.mem_cons_of_mem _ hs)
      have hnext : next :: rest ≠ [] := List.cons_ne_nil _ _
      have hhead := head?_inclusionBlocks base64
        (start + (inclusionComment base64 [spec]).length + 1) hrest hnext later
      simp only [inclusionBlocks, List.cons_append, compile_inclusion_cons hspecial hdirective,
        hsame, compile_newline_cons hhead, ih hrest hnext, inclusion_cons_eq_ok_iff]
      constructor
      · rintro ⟨first, -, hfirst, ⟨-, ⟨left, more, hleft, hmore, rfl⟩, rfl⟩, rfl⟩
        exact ⟨_, more, ⟨first, left, hfirst, hleft, rfl⟩, hmore, by simp⟩
      · rintro ⟨-, more, ⟨first, left, hfirst, hleft, rfl⟩, hmore, rfl⟩
        exact ⟨first, _, hfirst, ⟨_, ⟨left, more, hleft, hmore, rfl⟩, rfl⟩, by simp⟩

/-- The files that an include directive lists can be listed one by one, if they have names. -/
lemma isSpec_of_directive (h : b.directive = .inclusion specs base64) (hmem : spec ∈ specs) :
    spec = [] ∨ IsSpec spec := by
  have hlisted : specs = Directive.inclusionSpecs (Directive.commentContent b.data) := by
    rw [Block.directive, Directive.ofContent] at h
    split at h
    · exact ((Directive.inclusion.injEq ..).mp h).1.symm
    · -- nothing else is read as an include
      split at h
      · simp at h
      · simp only at h
        split at h
        · simp at h
        · split at h <;> simp at h
  rw [or_iff_not_imp_left]
  exact Directive.isSpec_of_mem (hlisted ▸ hmem)

/-- The lines of the single includes are scanned in the place of the comment that lists them. -/
lemma scan_inclusionLines {after : List Block} (hscan : Block.scan t = .ok (before ++ b :: after))
    (hdata : b.data = inclusionComment base64 specs) (hspecs : specs ≠ []) :
    ∃ (bs : List Block) (n m : Nat), after = bs.map (Block.moved n) ∧
      Block.scan (before.flatMap Block.data ++
          (inclusionLines base64 specs ++ after.flatMap Block.data))
        = .ok (before ++ (inclusionBlocks base64 b.start specs ++ bs.map (Block.moved m))) := by
  have hcomment : Block.IsWholeComment (inclusionComment base64 specs) := by
    have hopen : commentOpening <+: b.data := by
      rw [hdata]
      exact opening_prefix_comment _
    obtain ⟨-, rest, -, hlexeme, -⟩ :=
      Block.exists_isLexeme_of_scanFrom (Block.scanFrom_behind hscan)
    rw [← hdata]
    cases hlexeme with
    | comment h => exact h
    | literal _ h _ => exact absurd hopen.isInfix h.unopened
  have hsplit : Block.scan t = .ok ((before ++ [b]) ++ after) := by
    rwa [List.append_assoc, List.singleton_append]
  have hafter := Block.scanFrom_behind hsplit
  obtain ⟨bs, hbs, hmoved⟩ := Block.exists_scan_of_scanFrom hafter
  have hbehind := Block.scanFrom_add (n := b.start + (inclusionLines base64 specs).length) hbs
  rw [Nat.zero_add] at hbehind
  have hlines := Block.scanFrom_inclusionLines hspecs
    (fun spec hspec => isWholeComment_of_mem hcomment hspec) hbehind
  have hopen : commentOpening <+: inclusionLines base64 specs ++ after.flatMap Block.data :=
    (opening_prefix_inclusionLines base64 hspecs).trans (List.prefix_append _ _)
  exact ⟨bs, _, _, hmoved, Block.scanFrom_replace hscan hopen hlines⟩

/-- A document in which the lines of the single includes stand in the place of an include. -/
lemma documentWith_lines_eq_ok_iff {d : Document} {n m : Nat} {bs : List Block}
    (hspecial : b.isSpecial = true) (h : b.directive = .inclusion specs base64)
    (hne : specs ≠ []) (hscan : Block.scan t = .ok (before ++ b :: bs.map (Block.moved n)))
    (hlines : Block.scan t'
      = .ok (before ++ (inclusionBlocks base64 start specs ++ bs.map (Block.moved m)))) :
    (documentWith ctx nested { d with text := t } scope).outcome = .ok text ↔
      (documentWith ctx nested { d with text := t' } scope).outcome = .ok text := by
  have hspecs : ∀ spec ∈ specs, spec = [] ∨ IsSpec spec := fun _ hs => isSpec_of_directive h hs
  have hfirst : (b :: bs.map (Block.moved n)).head?.any (·.isDefinition)
      = (inclusionBlocks base64 start specs ++ bs.map (Block.moved m)).head?.any
          (·.isDefinition) := by
    rw [head?_inclusionBlocks base64 start hspecs hne]
    exact isDefinition_of_inclusion h
  have hbehind : ∀ scope text,
      ((Cursor.mk none (bs.map (Block.moved n)) scope).compile ctx nested
          { d with text := t }).outcome = .ok text ↔
        ((Cursor.mk none (bs.map (Block.moved m)) scope).compile ctx nested
          { d with text := t' }).outcome = .ok text := by
    intro scope text
    have hmoved : ∀ k (s : Text), ((Cursor.mk none (bs.map (Block.moved k)) scope).compile ctx
        nested { d with text := s }).outcome = .ok text ↔
          ((Cursor.mk none bs scope).compile ctx nested d).outcome = .ok text := fun k s =>
      compile_moved_eq_ok_iff (c := ⟨none, bs, scope⟩) (d := d) (t := d.text) k s
    rw [hmoved, hmoved]
  have hplace : ∀ previous scope text,
      ((Cursor.mk previous (b :: bs.map (Block.moved n)) scope).compile ctx nested
          { d with text := t }).outcome = .ok text ↔
        ((Cursor.mk previous (inclusionBlocks base64 start specs ++ bs.map (Block.moved m))
          scope).compile ctx nested { d with text := t' }).outcome = .ok text := by
    intro previous scope text
    rw [compile_inclusion_cons hspecial h, compile_inclusionBlocks hspecs hne]
    simp only [hbehind]
    -- an include does not look at the text of its document
    rfl
  rw [(documentWith_of_scan_ok hscan).1, (documentWith_of_scan_ok hlines).1]
  exact ⟨compile_append_eq_ok hfirst fun previous scope text => (hplace previous scope text).1,
    compile_append_eq_ok hfirst.symm fun previous scope text => (hplace previous scope text).2⟩

/-- An include of several files leaves the variables as they are, succeeds exactly if including
each of the files by itself does, and leaves what these leave, with a newline between them.  So
its comment can be replaced by the comments of the single includes, each on a line of its own,
wherever it stands in a document. -/
theorem inclusion_of_list (ctx : Context) (d : Document) (base64 : Bool) (specs : List Text)
    (hspecs : specs ≠ []) :
    (∀ nested scope,
      (directive ctx nested d scope (.inclusion specs base64)).scope = scope ∧
        ∀ text, (directive ctx nested d scope (.inclusion specs base64)).outcome = .ok text ↔
          ∃ texts, List.Forall₂ (fun spec t =>
              (directive ctx nested d scope (.inclusion [spec] base64)).outcome = .ok t)
            specs texts ∧ text = List.intercalate ['\n'] texts) ∧
      ∀ before b after scope text, Block.scan d.text = .ok (before ++ b :: after) →
        b.data = inclusionComment base64 specs → b.directive = .inclusion specs base64 →
        ((document ctx d scope).outcome = .ok text ↔
          (document ctx { d with text := before.flatMap Block.data ++
            (inclusionLines base64 specs ++ after.flatMap Block.data) } scope).outcome
              = .ok text) := by
  refine ⟨fun nested scope => ⟨rfl, fun text => inclusion_eq_ok_iff_single hspecs⟩, ?_⟩
  intro before b after scope text hscan hdata hdirective
  have hspecial : b.isSpecial = true := by
    have hline := Block.isSpecial_inclusionComment b.start base64 specs
    rwa [← hdata] at hline
  obtain ⟨bs, n, m, rfl, hlines⟩ := scan_inclusionLines hscan hdata hspecs
  exact documentWith_lines_eq_ok_iff (d := d) (t := d.text) hspecial hdirective hspecs hscan hlines

/-- A template and a file that is copied, listed between two lines of a document. -/
theorem inclusion_of_list_of_two :
    let m : MemoryStore :=
      ⟨[("/site/b.kit".toList, Encoding.utf8Bytes "<!--$n=2--><!--$n-->".toList),
        ("/site/c.txt".toList, Encoding.utf8Bytes "c".toList)], []⟩
    let ctx : Context := ⟨m.toStore, {}, "/site".toList, Codec.builtIn⟩
    let d : Document :=
      { text := "a\n<!--@include b, c.txt--> <!--$n-->\n".toList, file := "/site/a.kit".toList
        rootDir := "/site".toList, parents := [] }
    let specs : List Text := ["b".toList, "c.txt".toList]
    let initial : Scope := .ofList [("n".toList, "1".toList)]
    (∃ texts, List.Forall₂ (fun spec t => (directive ctx (nestedIn ctx) d initial
        (.inclusion [spec] false)).outcome = .ok t) specs texts ∧
      "2\nc".toList = List.intercalate ['\n'] texts) ∧
      (document ctx { d with
          text := "a\n<!--@include b-->\n<!--@include c.txt--> <!--$n-->\n".toList }
        initial).outcome = .ok "a\n2\nc 1\n".toList := by
  intro m ctx d specs initial
  obtain ⟨hlist, hplace⟩ := inclusion_of_list ctx d false specs (by decide)
  constructor
  · refine ((hlist (nestedIn ctx) initial).2 _).1 ?_
    decide +kernel
  · have hscan : Block.scan d.text = .ok ([⟨0, "a\n".toList⟩] ++
        ⟨2, "<!--@include b, c.txt-->".toList⟩ ::
          [⟨26, " ".toList⟩, ⟨27, "<!--$n-->".toList⟩, ⟨36, "\n".toList⟩]) := by decide +kernel
    refine (hplace _ _ _ initial _ hscan (by decide +kernel) (by decide +kernel)).1 ?_
    decide +kernel

end Compile

end CommentMarkup
