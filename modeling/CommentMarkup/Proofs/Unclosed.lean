/-
# Comments that are never closed

A text cannot be cut into blocks exactly if it has a comment that is opened and never closed, with
everything before it cut into blocks: a mark that opens a comment inside another one does not
count, nor does a closing mark that begins inside the opening one.  There is at most one such
comment, and a scan fails with its offset (`scan_eq_error_iff`).

A document is scanned before anything in it is executed.  So a document with such a comment fails
at once, whatever directives stand before the comment (`document_of_isUnclosed`).
-/
import CommentMarkup.Proofs.Partition
import CommentMarkup.Proofs.Progress

namespace CommentMarkup

namespace Block

/-- A comment is opened at an offset of a text and never closed. -/
structure IsUnclosed (text : Text) (offset : Nat) : Prop where
  /-- An opening mark stands there. -/
  opens : commentOpening <+: text.drop offset
  /-- No closing mark stands behind it. -/
  unclosed : ¬ commentClosing <:+: text.drop (offset + commentOpening.length)
  /-- The text before it can be cut into blocks. -/
  scans : ∃ bs, scan (text.take offset) = .ok bs

variable {start offset : Nat} {s text data before rest : Text} {bs : List Block}

/-! ### Up to an opening mark -/

/-- A text has no lexeme if it begins with an opening mark and goes on without a closing one. -/
lemma lexeme?_eq_none_iff :
    lexeme? s = none ↔ ∃ body, s = commentOpening ++ body ∧ ¬ commentClosing <:+: body := by
  unfold lexeme?
  cases hafter : Text.after? commentOpening s with
  | some body =>
    have hbody : commentOpening ++ body = s := Text.after?_eq_some_iff.1 hafter
    rw [Option.map_eq_none_iff, Text.breakOn?_eq_none_iff]
    constructor
    · intro hnot
      exact ⟨body, hbody.symm, hnot⟩
    · rintro ⟨body', hbody', hnot⟩
      obtain rfl : body = body' := List.append_cancel_left (hbody.trans hbody')
      exact hnot
  | none =>
    have hopen : ¬ commentOpening <+: s :=
      Text.isPrefixOf_eq_false_iff.1 (Text.after?_eq_none_iff.1 hafter)
    constructor
    · intro h
      simp at h
    · rintro ⟨body, rfl, -⟩
      exact absurd (List.prefix_append _ _) hopen

/-- A lexeme is cut in front of a comment as it is at the end of the text. -/
lemma isLexeme_append_iff (hrest : commentOpening <+: rest) :
    IsLexeme data (before ++ rest) ↔ IsLexeme data before := by
  have hends : (before ++ rest = [] ∨ commentOpening <+: before ++ rest) ↔
      (before = [] ∨ commentOpening <+: before) := by
    have hne : before ++ rest ≠ [] := by
      intro hnil
      rw [(List.append_eq_nil_iff.1 hnil).2] at hrest
      simp [commentOpening] at hrest
    rw [or_iff_right hne, opening_prefix_append hrest]
  constructor
  · intro h
    cases h with
    | comment h => exact .comment h
    | literal hne hlit h => exact .literal hne hlit (h.imp_right hends.1)
  · intro h
    cases h with
    | comment h => exact .comment h
    | literal hne hlit h => exact .literal hne hlit (h.imp_right hends.2)

/-! ### Where a scan fails -/

/-- A scan that gets to a text without a lexeme fails there. -/
lemma scanFrom_append_of_lexeme?_eq_none (hbefore : scanFrom start before = .ok bs)
    (hrest : lexeme? rest = none) :
    scanFrom start (before ++ rest) = .error (start + before.length) := by
  have hopen := opening_prefix_of_lexeme?_eq_none hrest
  induction bs generalizing start before with
  | nil =>
    have hnil : [].flatMap Block.data = before := flatMap_data_of_scanFrom hbefore
    have hne : rest ≠ [] := by
      rintro rfl
      simp [commentOpening] at hopen
    rw [← hnil]
    exact scanFrom_of_lexeme?_eq_none hne hrest
  | cons b bs ih =>
    obtain ⟨rfl, later, rfl, hlexeme, hlater⟩ := exists_isLexeme_of_scanFrom hbefore
    have hne : b.data ++ (later ++ rest) ≠ [] := by simp [hlexeme.ne_nil]
    have hgrown : lexeme? (b.data ++ (later ++ rest)) = some (b.data, later ++ rest) :=
      (lexeme?_eq_some_iff hne).2 ⟨rfl, (isLexeme_append_iff hopen).2 hlexeme⟩
    have hfails : scanFrom (b.start + b.data.length) (later ++ rest)
        = .error (b.start + b.data.length + later.length) := ih hlater
    rw [List.append_assoc, scanFrom_of_lexeme? hne hgrown, hfails, List.length_append,
      Nat.add_assoc]
    rfl

/-- A scan that fails has cut the text up to an end that has no lexeme. -/
lemma exists_of_scanFrom_error (h : scanFrom start s = .error offset) :
    ∃ before rest bs, s = before ++ rest ∧ offset = start + before.length ∧
      scanFrom start before = .ok bs ∧ lexeme? rest = none := by
  induction start, s using scanFrom.induct with
  | case1 start => simp [scanFrom_nil] at h
  | case2 start s hs hnone =>
    rw [scanFrom_of_lexeme?_eq_none hs hnone] at h
    exact ⟨[], s, [], rfl, (Except.error.inj h).symm, scanFrom_nil start, hnone⟩
  | case3 start s hs data rest hlexeme offset' herror ih =>
    rw [scanFrom_of_lexeme? hs hlexeme, herror] at h
    obtain rfl : offset' = offset := Except.error.inj h
    obtain ⟨before, rest', bs, rfl, hoffset, hbefore, hnone⟩ := ih herror
    obtain ⟨rfl, hfirst⟩ := (lexeme?_eq_some_iff hs).1 hlexeme
    -- the first block is cut off although the text ends sooner
    have hcut := (isLexeme_append_iff (opening_prefix_of_lexeme?_eq_none hnone)).1 hfirst
    refine ⟨data ++ before, rest', _, (List.append_assoc _ _ _).symm, ?_,
      scanFrom_append_of_isLexeme hcut hbefore, hnone⟩
    rw [hoffset, List.length_append, Nat.add_assoc]
  | case4 start s hs data rest hlexeme later hlater =>
    simp [scanFrom_of_lexeme? hs hlexeme, hlater, Except.map] at h

lemma isUnclosed_iff : IsUnclosed text offset ↔
    ∃ before rest bs, text = before ++ rest ∧ offset = before.length ∧ scan before = .ok bs ∧
      lexeme? rest = none := by
  constructor
  · rintro ⟨⟨body, hbody⟩, hunclosed, bs, hscan⟩
    have hle : offset ≤ text.length := by
      by_contra hlong
      rw [List.drop_eq_nil_of_le (by omega)] at hbody
      simp [commentOpening] at hbody
    refine ⟨text.take offset, text.drop offset, bs, (List.take_append_drop offset text).symm,
      (List.length_take_of_le hle).symm, hscan, lexeme?_eq_none_iff.2 ⟨body, hbody.symm, ?_⟩⟩
    rwa [← List.drop_drop, ← hbody, List.drop_left] at hunclosed
  · rintro ⟨before, rest, bs, rfl, rfl, hscan, hnone⟩
    obtain ⟨body, rfl, hunclosed⟩ := lexeme?_eq_none_iff.1 hnone
    refine ⟨?_, ?_, bs, ?_⟩
    · rw [List.drop_left]
      exact List.prefix_append _ _
    · rwa [← List.drop_drop, List.drop_left, List.drop_left]
    · rwa [List.take_left]

/-- A scan fails exactly at a comment that is never closed. -/
lemma scan_eq_error_iff : scan text = .error offset ↔ IsUnclosed text offset := by
  rw [isUnclosed_iff]
  constructor
  · intro h
    obtain ⟨before, rest, bs, htext, hoffset, hbefore, hnone⟩ := exists_of_scanFrom_error h
    exact ⟨before, rest, bs, htext, hoffset.trans (Nat.zero_add _), hbefore, hnone⟩
  · rintro ⟨before, rest, bs, rfl, rfl, hbefore, hnone⟩
    have hfails := scanFrom_append_of_lexeme?_eq_none hbefore hnone
    rwa [Nat.zero_add] at hfails

end Block

namespace Compile

/-- A scan fails exactly at a comment of the text that is never closed, and there is no other one.

A document with such a comment fails at it, at whatever depth it is compiled.  The diagnostic has
the place of the comment, an empty trace and no cause; nothing has been executed, so no event has
happened and the variables are as they were. -/
theorem document_of_isUnclosed (ctx : Context) (d : Document) (scope : Scope) (offset : Nat) :
    (Block.scan d.text = .error offset ↔ Block.IsUnclosed d.text offset) ∧
      (Block.IsUnclosed d.text offset →
        (∀ other, Block.IsUnclosed d.text other → other = offset) ∧
          let place := Position.ofOffset d.text offset
          let diagnostic : Diagnostic := .root
            { problem := .unterminatedComment unterminatedMessage, file := some d.file
              line := some place.line, column := some place.column, trace := [] } none
          document ctx d scope = ⟨.error (.diagnosed diagnostic), scope, []⟩ ∧
            ∀ depth, within ctx (depth + 1) d scope
              = ⟨.error (.diagnosed diagnostic), scope, []⟩) := by
  refine ⟨Block.scan_eq_error_iff, fun h => ⟨fun other hother => ?_, ?_⟩⟩
  · have hsame := (Block.scan_eq_error_iff.2 hother).symm.trans (Block.scan_eq_error_iff.2 h)
    exact Except.error.inj hsame
  · have hscan := Block.scan_eq_error_iff.2 h
    exact ⟨documentWith_of_scan_error hscan, fun depth => documentWith_of_scan_error hscan⟩

/-- A comment whose closing mark would begin inside its opening one, behind an include, and behind
a comment that has another opening mark in it. -/
theorem document_of_isUnclosed_of_overlap :
    let ctx : Context := ⟨(⟨[], []⟩ : MemoryStore).toStore, {}, "/site".toList, Codec.builtIn⟩
    let d : Document :=
      { text := "<!--@include b-->\n<!--<!--$n=1--> <!-->".toList, file := "/site/a.kit".toList
        rootDir := "/site".toList, parents := [] }
    Block.IsUnclosed d.text 34 ∧ (document ctx d .empty).events = [] ∧
      ∀ other, Block.IsUnclosed d.text other → other = 34 := by
  intro ctx d
  have hscan : Block.scan d.text = .error 34 := by decide +kernel
  obtain ⟨hiff, hunclosed⟩ := document_of_isUnclosed ctx d .empty 34
  obtain ⟨hother, hdocument, -⟩ := hunclosed (hiff.1 hscan)
  exact ⟨hiff.1 hscan, by rw [hdocument], hother⟩

end Compile

end CommentMarkup
