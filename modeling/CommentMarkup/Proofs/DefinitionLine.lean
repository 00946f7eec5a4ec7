/-
# Lines that only define

A line that holds nothing but definitions, with blanks between them, leaves no trace: neither the
definitions nor the blanks nor the newline at its end (`document_of_definition_line`).  Each of
its blocks is a definition or stands beside one.  So the whole line is left out, and what
is left of the text behind it does not depend on the line but for the variables, even where that
text begins with blanks or with another definition.

The text before the line has to end its own line, and the line has to begin with blanks
if it comes after a blank one: otherwise the first definition would take the end of that line
along.
-/
import CommentMarkup.Proofs.Partition
import CommentMarkup.Proofs.Seam

namespace CommentMarkup

/-! ### The line -/

/-- Blanks within a line. -/
structure Gap where
  /-- The blanks. -/
  text : Text
  /-- There is nothing else. -/
  blank : Text.allBlank text = true
  /-- They do not end the line. -/
  inLine : '\n' ∉ text

/-- A definition with the blanks in front of it. -/
structure SpacedDefinition where
  /-- The blanks, if there are any. -/
  gap : Gap
  /-- The comment that holds the definition. -/
  comment : Text
  /-- The name of the variable. -/
  name : Text
  /-- The value that it gets. -/
  value : Text
  /-- The comment is complete, and ends where it is closed first. -/
  whole : Block.IsWholeComment comment
  /-- The comment is a directive. -/
  special : (Block.mk 0 comment).isSpecial = true
  /-- The directive is a definition. -/
  defines : (Block.mk 0 comment).directive = .definition name value

namespace SpacedDefinition

variable (p : SpacedDefinition) (start : Nat)

/-- The text of a definition and of the blanks in front of it. -/
def text : Text := p.gap.text ++ p.comment

/-- What a definition defines. -/
def entry : Text × Text := (p.name, p.value)

/-- The block of the comment itself. -/
def commentBlock : Block := ⟨start + p.gap.text.length, p.comment⟩

/-- The blocks of a definition and of the blanks in front of it. -/
def blocks : List Block :=
  if p.gap.text = [] then [p.commentBlock start]
  else [⟨start, p.gap.text⟩, p.commentBlock start]

end SpacedDefinition

/-- A line that holds definitions, at least one of them, and blanks. -/
structure DefinitionLine where
  /-- The first definition. -/
  first : SpacedDefinition
  /-- The definitions behind it. -/
  more : List SpacedDefinition
  /-- The blanks at the end. -/
  trailing : Gap

namespace DefinitionLine

variable (line : DefinitionLine) (start : Nat)

/-- All definitions of a line. -/
def parts : List SpacedDefinition := line.first :: line.more

/-- The text of a line, with the newline at its end. -/
def text : Text := line.parts.flatMap SpacedDefinition.text ++ (line.trailing.text ++ ['\n'])

/-- What a line defines, in order. -/
def entries : List (Text × Text) := line.parts.map SpacedDefinition.entry

/-- The blocks of some definitions and of the end of their line. -/
def blocksFrom (trailing : Gap) : Nat → List SpacedDefinition → List Block
  | start, [] => [⟨start, trailing.text ++ ['\n']⟩]
  | start, p :: rest => p.blocks start ++ blocksFrom trailing (start + p.text.length) rest

/-- The blocks of a line. -/
def blocks : List Block := blocksFrom line.trailing start line.parts

end DefinitionLine

/-! ### Its blocks -/

namespace Block

variable {start : Nat} {s t : Text} {b last : Block} {bs later : List Block}

/-- Blanks make a literal, if a newline stands only at their end. -/
lemma isLiteral_of_allBlank (hblank : Text.allBlank s = true) (hnewline : '\n' ∉ s.dropLast) :
    IsLiteral s := by
  refine ⟨fun hopen => ?_, hnewline⟩
  have hmark : '<' ∈ s := hopen.subset (by simp [commentOpening])
  exact absurd (List.all_eq_true.1 hblank '<' hmark) (by decide)

lemma isLiteral_gap (gap : Gap) : IsLiteral gap.text :=
  isLiteral_of_allBlank gap.blank fun h => gap.inLine (List.mem_of_mem_dropLast h)

lemma isDefinition_of_directive {name value : Text} (hspecial : b.isSpecial = true)
    (hdirective : b.directive = .definition name value) : b.isDefinition = true := by
  simp [isDefinition, hspecial, hdirective]

lemma not_isDefinition_of_not_isComment (h : b.isComment = false) : b.isDefinition = false := by
  simp [isDefinition, isSpecial, h]

/-- A block ends with the text that it ends. -/
lemma getLast?_data_of_scan (h : scan s = .ok bs) (hlast : last ∈ bs.getLast?) :
    last.data.getLast? = s.getLast? := by
  obtain ⟨before, rfl⟩ := List.getLast?_eq_some_iff.1 hlast
  have hne : last.data ≠ [] :=
    ((scanFrom_eq_ok_iff rfl (Nat.zero_le _)).1 h).ne_nil last (by simp)
  rw [← flatMap_data_of_scan h, List.flatMap_append, List.flatMap_singleton,
    List.getLast?_append_of_ne_nil _ hne]

/-- The last block of a text that ends its line does so as well. -/
lemma newline_of_scan (h : scan s = .ok bs) (hend : s = [] ∨ s.getLast? = some '\n')
    (hlast : last ∈ bs.getLast?) : last.data.getLast? = some '\n' := by
  rcases hend with rfl | hend
  · rw [scan, scanFrom_nil] at h
    simp [← Except.ok.inj h] at hlast
  · exact (getLast?_data_of_scan h hlast).trans hend

/-- A block that ends its line is a literal. -/
lemma isComment_of_newline (h : scan s = .ok bs) (hb : b ∈ bs)
    (hnewline : b.data.getLast? = some '\n') : b.isComment = false := by
  rcases ((scanFrom_eq_ok_iff rfl (Nat.zero_le _)).1 h).shape b hb with hcomment | hlit
  · obtain ⟨before, hbefore⟩ := hcomment.closes
    rw [← hbefore] at hnewline
    simp [commentClosing] at hnewline
  · exact hlit.not_isComment

end Block

namespace SpacedDefinition

open Block

variable (p : SpacedDefinition) {start : Nat} {t : Text} {later : List Block}

lemma isDefinition_commentBlock (start : Nat) : (p.commentBlock start).isDefinition = true :=
  isDefinition_of_directive (b := p.commentBlock start) p.special p.defines

lemma definitions_blocks_append :
    definitions (p.blocks start ++ later) = p.entry :: definitions later := by
  have hcomment : (p.commentBlock start).definition? = some p.entry := by
    have hspecial : (p.commentBlock start).isSpecial = true := p.special
    have hdirective : (p.commentBlock start).directive = .definition p.name p.value := p.defines
    rw [definition?_of_isSpecial hspecial, hdirective]
    rfl
  have hgap : (Block.mk start p.gap.text).definition? = none := by
    refine definition?_of_not_isSpecial ?_
    rw [isSpecial, (isLiteral_gap p.gap).not_isComment, Bool.false_and]
  unfold blocks
  split <;> simp [definitions, hcomment, hgap]

/-- A definition and the blanks in front of it are scanned before what follows. -/
lemma scanFrom_append (h : scanFrom (start + p.text.length) t = .ok later) :
    scanFrom start (p.text ++ t) = .ok (p.blocks start ++ later) := by
  have hcomment : scanFrom (start + p.gap.text.length) (p.comment ++ t)
      = .ok (p.commentBlock start :: later) := by
    have hlexeme : IsLexeme p.comment t := .comment p.whole
    have hne := hlexeme.ne_nil
    rw [text, List.length_append, ← Nat.add_assoc] at h
    rw [scanFrom_of_lexeme? (by simp [hne]) (lexeme?_of_isWholeComment p.whole t), h]
    rfl
  unfold text blocks
  split
  · next hgap =>
    rw [hgap, List.length_nil, Nat.add_zero] at hcomment
    rw [hgap, List.nil_append, hcomment]
    rfl
  · next hgap =>
    have hlexeme : lexeme? (p.gap.text ++ (p.comment ++ t)) = some (p.gap.text, p.comment ++ t) :=
      (lexeme?_eq_some_iff (by simp [hgap])).2 ⟨rfl, .literal hgap (isLiteral_gap p.gap)
        (Or.inr (Or.inr (p.whole.opens.trans (List.prefix_append _ _))))⟩
    rw [List.append_assoc, scanFrom_of_lexeme? (by simp [hgap]) hlexeme, hcomment]
    rfl

end SpacedDefinition

namespace DefinitionLine

open Block

variable {trailing : Gap} {start : Nat} {ps : List SpacedDefinition}

lemma allBlank_end (trailing : Gap) : Text.allBlank (trailing.text ++ ['\n']) = true := by
  have hnewline : isBlank '\n' = true := by decide
  simpa [Text.allBlank, hnewline] using trailing.blank

/-- What ends a line is one literal. -/
lemma isLiteral_end (trailing : Gap) : IsLiteral (trailing.text ++ ['\n']) :=
  isLiteral_of_allBlank (allBlank_end trailing) (by simpa using trailing.inLine)

lemma scanFrom_blocksFrom :
    scanFrom start (ps.flatMap SpacedDefinition.text ++ (trailing.text ++ ['\n']))
      = .ok (blocksFrom trailing start ps) := by
  induction ps generalizing start with
  | nil =>
    have hne : trailing.text ++ ['\n'] ≠ [] := by simp
    have hlexeme : lexeme? (trailing.text ++ ['\n']) = some (trailing.text ++ ['\n'], []) :=
      (lexeme?_eq_some_iff hne).2
        ⟨List.append_nil _, .literal hne (isLiteral_end trailing) (Or.inl (by simp))⟩
    rw [List.flatMap_nil, List.nil_append, scanFrom_of_lexeme? hne hlexeme, scanFrom_nil]
    rfl
  | cons p rest ih =>
    rw [List.flatMap_cons, List.append_assoc]
    exact p.scanFrom_append ih

lemma getLast?_blocksFrom :
    ∃ n, (blocksFrom trailing start ps).getLast? = some ⟨n, trailing.text ++ ['\n']⟩ := by
  induction ps generalizing start with
  | nil => exact ⟨start, rfl⟩
  | cons p rest ih =>
    obtain ⟨n, hn⟩ := @ih (start + p.text.length)
    exact ⟨n, by rw [blocksFrom, List.getLast?_append, hn, Option.some_or]⟩

lemma definitions_blocksFrom :
    definitions (blocksFrom trailing start ps) = ps.map SpacedDefinition.entry := by
  induction ps generalizing start with
  | nil =>
    have hend : (Block.mk start (trailing.text ++ ['\n'])).definition? = none := by
      refine definition?_of_not_isSpecial ?_
      rw [isSpecial, (isLiteral_end trailing).not_isComment, Bool.false_and]
    simp [blocksFrom, definitions, hend]
  | cons p rest ih => rw [blocksFrom, p.definitions_blocks_append, ih, List.map_cons]

end DefinitionLine

/-! ### Leaving nothing -/

namespace Compile

variable {ctx : Context} {nested : Document → Scope → Run Text} {d : Document} {scope : Scope}
  {previous : Option Block} {b : Block} {bs rest more : List Block}

/-- Blocks that leave nothing, whatever stands behind them: definitions, and blanks beside
them. -/
inductive Silent : Option Block → List Block → Prop where
  /-- There are no blocks. -/
  | nil (previous : Option Block) : Silent previous []
  /-- A definition leaves nothing. -/
  | definition {previous : Option Block} {b : Block} {rest : List Block}
      (hb : b.isDefinition = true) (h : Silent (some b) rest) : Silent previous (b :: rest)
  /-- Blanks beside a definition are left out. -/
  | blank {previous : Option Block} {b : Block} {rest : List Block}
      (hout : collapses previous b rest.head? = true) (h : Silent (some b) rest) :
      Silent previous (b :: rest)

/-- A block that is left out still is when other blocks are put behind all of them. -/
lemma collapses_append (h : collapses previous b rest.head? = true) :
    collapses previous b (rest ++ more).head? = true := by
  cases rest with
  | cons next rest => exact h
  | nil =>
    simp only [collapses, List.head?_nil, Option.any_none, Bool.or_false, Bool.and_eq_true] at h
    simp [collapses, h.1, h.2]

lemma block_outcome_of_isDefinition (h : b.isDefinition = true) :
    (block ctx nested d scope b).outcome = .ok [] := by
  have hspecial := Block.isSpecial_of_isDefinition h
  rw [block_eq_ok_iff hspecial, execute_outcome]
  cases haction : b.directive with
  | definition name value => rfl
  | inclusion | reference | compilation => simp [Block.isDefinition, haction] at h

/-- Compilation gets through such blocks without leaving anything. -/
lemma Silent.reaches (h : Silent previous bs) (more : List Block) (scope : Scope) :
    ∃ events, Reaches ctx nested d ⟨previous, bs ++ more, scope⟩ [] events
      ⟨bs.getLast?.or previous, more,
        scope.defineAll ctx.settings.nilSentinel (Block.definitions bs)⟩ := by
  have hreach : ∃ events previous' scope',
      Reaches ctx nested d ⟨previous, bs ++ more, scope⟩ [] events ⟨previous', more, scope'⟩ := by
    induction h generalizing scope with
    | nil => exact ⟨_, _, _, .here _⟩
    | definition hb _ ih =>
      obtain ⟨events, previous', scope', hreach⟩ := ih (block ctx nested d scope _).scope
      have hspecial := Block.isSpecial_of_isDefinition hb
      exact ⟨_, _, _, .keep (not_collapses_of_isSpecial hspecial)
        (block_outcome_of_isDefinition hb) hreach⟩
    | blank hout _ ih =>
      obtain ⟨events, previous', scope', hreach⟩ := ih scope
      exact ⟨_, _, _, .skip (collapses_append hout) hreach⟩
  obtain ⟨events, previous', scope', hreach⟩ := hreach
  obtain ⟨before, hbefore, hprevious⟩ := hreach.previous_eq
  obtain rfl : bs = before := List.append_cancel_right hbefore
  have hscope := scope_eq_of_reaches hreach (rfl : bs ++ more = bs ++ more)
  exact ⟨events, hprevious ▸ hscope ▸ hreach⟩

lemma Silent.blocks_append (p : SpacedDefinition) {start : Nat}
    (h : Silent (some (p.commentBlock start)) rest) : Silent previous (p.blocks start ++ rest) := by
  have hcomment := p.isDefinition_commentBlock start
  unfold SpacedDefinition.blocks
  split
  · exact .definition hcomment h
  · refine .blank ?_ (.definition hcomment h)
    simp [collapses, p.gap.blank, hcomment]

/-- All blocks of a line that holds a definition, or that goes on behind one, are such blocks. -/
lemma silent_blocksFrom {trailing : Gap} {start : Nat} {ps : List SpacedDefinition}
    (h : ps ≠ [] ∨ previous.any (·.isDefinition) = true) :
    Silent previous (DefinitionLine.blocksFrom trailing start ps) := by
  induction ps generalizing start previous with
  | nil =>
    refine .blank ?_ (.nil _)
    simpa [collapses, DefinitionLine.allBlank_end trailing] using h
  | cons p rest ih => exact .blocks_append p (ih (Or.inr (p.isDefinition_commentBlock _)))

/-! ### Documents -/

section Line

variable {a t text t₁ : Text} {as : List Block} (line : DefinitionLine)

/-- A text, a line that only defines, and another text are scanned one after the other. -/
lemma scan_definitionLine (ha : Block.scan a = .ok as)
    (hend : a = [] ∨ a.getLast? = some '\n') (ht : Block.scan t = .ok bs) :
    Block.scan (a ++ (line.text ++ t)) = .ok (as ++ (line.blocks a.length
      ++ bs.map (Block.moved (a.length + line.text.length)))) := by
  have hline : Block.scanFrom a.length line.text = .ok (line.blocks a.length) :=
    DefinitionLine.scanFrom_blocksFrom
  have hlater := Block.scanFrom_add (n := a.length + line.text.length) ht
  rw [Nat.zero_add] at hlater
  refine Block.scanFrom_append ha
    (fun last hlast => Or.inr (Block.newline_of_scan ha hend hlast)) ?_
  rw [Nat.zero_add]
  refine Block.scanFrom_append hline (fun last hlast => Or.inr ?_) hlater
  obtain ⟨n, hn⟩ : ∃ n, (line.blocks a.length).getLast? = _ := DefinitionLine.getLast?_blocksFrom
  obtain rfl := Option.some.inj (hn.symm.trans hlast)
  exact List.getLast?_concat

/-- A line that only defines stands apart from the text before it, if that text ends its own
line and the two are not blank and a definition where they meet. -/
lemma apart_definitionLine (ha : Block.scan a = .ok as)
    (hend : a = [] ∨ a.getLast? = some '\n')
    (hblank : line.first.gap.text ≠ [] ∨ a = [] ∨
      ∀ last ∈ as.getLast?, Text.allBlank last.data = false) (start : Nat) :
    Apart as (line.blocks start ++ more) := by
  intro last hlast first hfirst
  have hlastComment := Block.isComment_of_newline ha (List.mem_of_getLast? hlast)
    (Block.newline_of_scan ha hend hlast)
  have hlastDefinition := Block.not_isDefinition_of_not_isComment hlastComment
  refine ⟨fun ⟨hlastBlank, hdefinition⟩ => ?_, by simp [hlastDefinition]⟩
  rcases hblank with hgap | rfl | hshown
  · -- the line begins with blanks
    obtain rfl : Block.mk start line.first.gap.text = first := by
      simpa [DefinitionLine.blocks, DefinitionLine.parts, DefinitionLine.blocksFrom,
        SpacedDefinition.blocks, hgap] using hfirst
    have hcomment := (Block.isLiteral_gap line.first.gap).not_isComment
      (b := ⟨start, line.first.gap.text⟩)
    simp [Block.not_isDefinition_of_not_isComment hcomment] at hdefinition
  · -- there is nothing before the line
    rw [Block.scan, Block.scanFrom_nil] at ha
    simp [← Except.ok.inj ha] at hlast
  · simp [hshown last hlast] at hlastBlank

/-- Where the first text leaves something, the whole leaves that, and behind it what the last
text leaves with the definitions of the line. -/
lemma documentWith_definitionLine_of_reaches {u : Text} {n start : Nat} {scope' : Scope}
    {events : List Event} (ht : Block.scan t = .ok bs)
    (hwhole : Block.scan (a ++ u)
      = .ok (as ++ (line.blocks start ++ bs.map (Block.moved n))))
    (hapart : Apart as (line.blocks start ++ bs.map (Block.moved n)))
    (hfirst : Reaches ctx nested { d with text := a } ⟨none, as, scope⟩ t₁ events
      ⟨previous, [], scope'⟩) :
    (documentWith ctx nested { d with text := a ++ u } scope).outcome = .ok text ↔
      ∃ t₂, (documentWith ctx nested { d with text := t }
          (scope'.defineAll ctx.settings.nilSentinel line.entries)).outcome = .ok t₂ ∧
        text = t₁ ++ t₂ := by
  obtain ⟨m, hlast⟩ : ∃ m, (line.blocks start).getLast? = _ := DefinitionLine.getLast?_blocksFrom
  have hentries : Block.definitions (line.blocks start) = line.entries :=
    DefinitionLine.definitions_blocksFrom
  have hend := Block.not_isDefinition_of_not_isComment
    ((DefinitionLine.isLiteral_end line.trailing).not_isComment
      (b := ⟨m, line.trailing.text ++ ['\n']⟩))
  have hsilent : Silent previous (line.blocks start) :=
    silent_blocksFrom (Or.inl (List.cons_ne_nil _ _))
  have hline : ∃ events', Reaches ctx nested { d with text := a ++ u }
      ⟨previous, line.blocks start ++ bs.map (Block.moved n), scope'⟩ [] events' _ :=
    hsilent.reaches (bs.map (Block.moved n)) scope'
  obtain ⟨events₁, hbefore⟩ := hfirst.before_seam (t := u) hapart
  obtain ⟨events₂, hline⟩ := hline
  rw [hlast, hentries] at hline
  rw [(documentWith_of_scan_ok hwhole).1, compile_of_reaches (hbefore.trans hline), goOn_eq_ok_iff,
    compile_of_not_isDefinition (by simpa using hend), List.append_nil]
  refine exists_congr fun t₂ => and_congr_left fun _ => ?_
  rw [(documentWith_of_scan_ok ht).1]
  exact compile_moved_eq_ok_iff (d := d) (c := ⟨none, bs, _⟩) n (a ++ u)

end Line

/-- A line that holds only definitions, with blanks between them, leaves no trace.  Let it stand
behind a text that is empty or ends its own line, and let it begin with blanks if that text ends
with a blank block.  Then the whole compiles exactly if the text before it does, and the text
behind it does with the variables at the end of the first one and the definitions of the line; it
leaves what the one and then the other leaves, whatever the second one begins with. -/
theorem document_of_definition_line (ctx : Context) (d : Document) (scope : Scope) (a b : Text)
    (line : DefinitionLine) (as bs : List Block) (ha : Block.scan a = .ok as)
    (hb : Block.scan b = .ok bs) (hend : a = [] ∨ a.getLast? = some '\n')
    (hblank : line.first.gap.text ≠ [] ∨ a = [] ∨
      ∀ last ∈ as.getLast?, Text.allBlank last.data = false) (text : Text) :
    (document ctx { d with text := a ++ line.text ++ b } scope).outcome = .ok text ↔
      ∃ t₁ t₂, (document ctx { d with text := a } scope).outcome = .ok t₁ ∧
        (document ctx { d with text := b }
          ((document ctx { d with text := a } scope).scope.defineAll ctx.settings.nilSentinel
            line.entries)).outcome = .ok t₂ ∧
        text = t₁ ++ t₂ := by
  have hwhole := scan_definitionLine line ha hend hb
  have hapart : Apart as (line.blocks a.length
      ++ bs.map (Block.moved (a.length + line.text.length))) :=
    apart_definitionLine line ha hend hblank a.length
  have hdocument : ∀ d scope, document ctx d scope = documentWith ctx (nestedIn ctx) d scope :=
    fun _ _ => rfl
  simp only [List.append_assoc, hdocument]
  cases h₁ : (documentWith ctx (nestedIn ctx) { d with text := a } scope).outcome with
  | error f =>
    -- the whole fails as the first text does
    simp [documentWith_append_of_error ha hwhole hapart h₁]
  | ok t₁ =>
    rw [(documentWith_of_scan_ok ha).1] at h₁
    obtain ⟨events, previous, scope', hfirst⟩ := exists_reaches_of_ok h₁
    rw [documentWith_definitionLine_of_reaches line hb hwhole hapart hfirst,
      (documentWith_of_scan_ok ha).2, hfirst.compile_eq]
    simp

/-- A blank line that is kept; behind it a line with two definitions, of which one has a comment
over two lines; and behind that a text that begins with a blank line and another definition. -/
theorem document_of_definition_line_of_blank_lines :
    let ctx : Context := ⟨(MemoryStore.mk [] []).toStore, {}, "/site".toList, Codec.builtIn⟩
    let d : Document :=
      { text := [], file := "/site/a.kit".toList, rootDir := "/site".toList, parents := [] }
    let a : Text := "a\n\n".toList
    let b : Text := "\n\n<!--$m=3--><!--$n--> <!--$k--><!--$m-->".toList
    let line : DefinitionLine :=
      { first :=
          { gap := ⟨"\t".toList, by decide, by decide⟩, comment := "<!--$n=1-->".toList
            name := "n".toList, value := "1".toList
            whole := Block.isWholeComment_of_lexeme? (by decide)
              (by decide : Block.lexeme? "<!--$n=1-->".toList = some (_, []))
            special := by decide, defines := by decide }
        more := [
          { gap := ⟨" ".toList, by decide, by decide⟩, comment := "<!-- @k :\n2 -->".toList
            name := "k".toList, value := "2".toList
            whole := Block.isWholeComment_of_lexeme? (by decide)
              (by decide : Block.lexeme? "<!-- @k :\n2 -->".toList = some (_, []))
            special := by decide, defines := by decide }]
        trailing := ⟨"\r".toList, by decide, by decide⟩ }
    line.text = "\t<!--$n=1--> <!-- @k :\n2 -->\r\n".toList ∧
      (document ctx { d with text := a ++ line.text ++ b } .empty).outcome
        = .ok "a\n\n\n1 23".toList := by
  intro ctx d a b line
  have ha : Block.scan a = .ok [⟨0, "a\n".toList⟩, ⟨2, "\n".toList⟩] := by decide +kernel
  have hb : Block.scan b = .ok [⟨0, "\n".toList⟩, ⟨1, "\n".toList⟩, ⟨2, "<!--$m=3-->".toList⟩,
      ⟨13, "<!--$n-->".toList⟩, ⟨22, " ".toList⟩, ⟨23, "<!--$k-->".toList⟩,
      ⟨32, "<!--$m-->".toList⟩] := by decide +kernel
  have h₁ : (document ctx { d with text := a } .empty).outcome = .ok a := by decide +kernel
  have h₂ : (document ctx { d with text := b }
      ((document ctx { d with text := a } .empty).scope.defineAll ctx.settings.nilSentinel
        line.entries)).outcome = .ok "\n1 23".toList := by decide +kernel
  refine ⟨by decide, ?_⟩
  exact (document_of_definition_line ctx d .empty a b line _ _ ha hb (Or.inr (by decide))
    (Or.inl (by decide)) _).2 ⟨a, _, h₁, h₂, by decide⟩

end Compile

end CommentMarkup
