/-
# The first block of a text

A lexeme is a whole comment, or a literal run that goes on for as long as it can.  This file
says what these two are without a look at how they are found (`IsWholeComment`, `IsLiteral`),
and shows that the lexeme of a text is the one beginning of this shape
(`lexeme?_eq_some_iff`).  A comment is over by its own last characters, and a literal run that
ends its line is as well; so text that comes later does not change them (`lexeme?_append`).
-/
import CommentMarkup.Block
import Mathlib.Tactic.ByContra
import Mathlib.Tactic.Lemma

namespace CommentMarkup

lemma Text.isPrefixOf_eq_false_iff {mark s : Text} :
    mark.isPrefixOf s = false ↔ ¬ mark <+: s := by
  rw [← Bool.not_eq_true, List.isPrefixOf_iff_prefix]

/-- Breaking a text at a mark finds the first place where the mark stands. -/
lemma Text.breakOn?_eq_some_iff {mark s a b : Text} :
    breakOn? mark s = some (a, b) ↔
      a ++ mark ++ b = s ∧ ∀ i < a.length, ¬ mark <+: s.drop i := by
  induction s generalizing a b with
  | nil =>
    by_cases hmark : mark = []
    · simp +contextual [breakOn?, hmark, eq_comm]
    · simp [breakOn?, hmark]
  | cons c r ih =>
    cases h : after? mark (c :: r) with
    | some rest =>
      -- the mark stands at the beginning
      have hrest : mark ++ rest = c :: r := after?_eq_some_iff.1 h
      simp only [breakOn?, h, Option.some.injEq, Prod.mk.injEq]
      constructor
      · rintro ⟨rfl, rfl⟩
        exact ⟨hrest, by simp⟩
      · rintro ⟨heq, hfirst⟩
        have ha : a = [] := by
          by_contra ha
          exact hfirst 0 (List.length_pos_iff.2 ha) ⟨rest, hrest⟩
        subst ha
        exact ⟨rfl, List.append_cancel_left (hrest.trans heq.symm)⟩
    | none =>
      have hnot : ¬ mark <+: c :: r := isPrefixOf_eq_false_iff.1 (after?_eq_none_iff.1 h)
      simp only [breakOn?, h, Option.map_eq_some_iff, Prod.mk.injEq]
      constructor
      · rintro ⟨⟨a', b'⟩, hp, rfl, rfl⟩
        obtain ⟨rfl, hfirst⟩ := ih.1 hp
        refine ⟨rfl, fun i hi => ?_⟩
        cases i with
        | zero => exact hnot
        | succ i => exact hfirst i (by simpa using hi)
      · rintro ⟨heq, hfirst⟩
        cases a with
        | nil => exact absurd ⟨b, heq⟩ hnot
        | cons x a =>
          obtain ⟨rfl, hr⟩ := List.cons.inj heq
          refine ⟨(a, b), ih.2 ⟨hr, fun i hi => ?_⟩, rfl, rfl⟩
          exact hfirst (i + 1) (by simpa using hi)

/-- A mark that is not found stands nowhere in the text. -/
lemma Text.breakOn?_eq_none_iff {mark s : Text} : breakOn? mark s = none ↔ ¬ mark <:+: s := by
  induction s with
  | nil => simp [breakOn?]
  | cons c r ih =>
    rw [List.infix_cons_iff, not_or, ← ih, ← isPrefixOf_eq_false_iff, ← after?_eq_none_iff]
    cases h : after? mark (c :: r) with
    | some rest => simp [breakOn?, h]
    | none => simp [breakOn?, h]

namespace Block

/-! ### The two shapes -/

/-- A whole comment: it begins with the opening mark and ends with the first closing mark that
stands behind the opening one. -/
structure IsWholeComment (data : Text) : Prop where
  /-- It begins with the opening mark. -/
  opens : commentOpening <+: data
  /-- It has room for both marks. -/
  long : commentOpening.length + commentClosing.length ≤ data.length
  /-- It ends with the closing mark. -/
  closes : commentClosing <:+ data
  /-- No closing mark stands between the two. -/
  first : ∀ i, commentOpening.length ≤ i → i + commentClosing.length < data.length →
    ¬ commentClosing <+: data.drop i

/-- A literal: it has no opening mark, and a newline only at its end. -/
structure IsLiteral (data : Text) : Prop where
  /-- No opening mark stands in it. -/
  unopened : ¬ commentOpening <:+: data
  /-- Only its last character can be a newline. -/
  newline : '\n' ∉ data.dropLast

/-- A text is cut after its first block: after a whole comment, or after a literal that ends
its line or ends where it has to, at a comment or with the text. -/
inductive IsLexeme (data rest : Text) : Prop where
  /-- The block is a comment. -/
  | comment (h : IsWholeComment data)
  /-- The block is a literal. -/
  | literal (ne_nil : data ≠ []) (h : IsLiteral data)
      (ends : data.getLast? = some '\n' ∨ rest = [] ∨ commentOpening <+: rest)

variable {s data rest : Text}

lemma IsLexeme.ne_nil (h : IsLexeme data rest) : data ≠ [] := by
  cases h with
  | comment h =>
    rintro rfl
    simpa [commentOpening] using h.opens
  | literal ne_nil _ _ => exact ne_nil

lemma IsWholeComment.isComment {b : Block} (h : IsWholeComment b.data) : b.isComment = true :=
  List.isPrefixOf_iff_prefix.2 h.opens

lemma IsLiteral.not_isComment {b : Block} (h : IsLiteral b.data) : b.isComment = false := by
  cases hb : b.isComment with
  | false => rfl
  | true => exact absurd (List.isPrefixOf_iff_prefix.1 hb).isInfix h.unopened

/-! ### Comments -/

/-- What stands between the marks of a whole comment has no closing mark, not even together
with the one that follows it. -/
lemma isWholeComment_iff :
    IsWholeComment data ↔ ∃ body, data = commentOpening ++ body ++ commentClosing ∧
      ∀ i < body.length, ¬ commentClosing <+: (body ++ commentClosing).drop i := by
  constructor
  · rintro ⟨⟨inner, rfl⟩, hlong, hcloses, hfirst⟩
    have hinner : commentClosing <:+ inner :=
      List.suffix_of_suffix_length_le hcloses (List.suffix_append _ _) (by simpa using hlong)
    obtain ⟨body, rfl⟩ := hinner
    refine ⟨body, by simp, fun i hi => ?_⟩
    have hdrop := hfirst (commentOpening.length + i) (by omega) (by simp; omega)
    rwa [List.drop_append, List.drop_eq_nil_of_le (by omega), Nat.add_sub_cancel_left] at hdrop
  · rintro ⟨body, rfl, hfirst⟩
    refine ⟨⟨body ++ commentClosing, by simp⟩, by simp, List.suffix_append _ _, ?_⟩
    intro i hi hlen
    obtain ⟨j, rfl⟩ := Nat.exists_eq_add_of_le hi
    rw [List.append_assoc, List.drop_append, List.drop_eq_nil_of_le (by omega),
      Nat.add_sub_cancel_left]
    exact hfirst j (by simp at hlen; omega)

/-- A closing mark in a text that goes on stands in its first part if there is room for it. -/
lemma closing_prefix_drop_append {body : Text} {i : Nat} (hi : i < body.length) :
    commentClosing <+: (body ++ commentClosing ++ rest).drop i ↔
      commentClosing <+: (body ++ commentClosing).drop i := by
  have hdrop : (body ++ commentClosing ++ rest).drop i
      = (body ++ commentClosing).drop i ++ rest :=
    List.drop_append_of_le_length (by simp; omega)
  rw [hdrop]
  constructor
  · intro h
    exact List.prefix_of_prefix_length_le h (List.prefix_append _ _) (by simp; omega)
  · intro h
    exact h.trans (List.prefix_append _ _)

lemma lexeme?_of_isWholeComment (h : IsWholeComment data) (rest : Text) :
    lexeme? (data ++ rest) = some (data, rest) := by
  obtain ⟨body, rfl, hfirst⟩ := isWholeComment_iff.1 h
  have hafter : Text.after? commentOpening (commentOpening ++ body ++ commentClosing ++ rest)
      = some (body ++ commentClosing ++ rest) := Text.after?_eq_some_iff.2 (by simp)
  have hbreak : Text.breakOn? commentClosing (body ++ commentClosing ++ rest)
      = some (body, rest) := by
    refine Text.breakOn?_eq_some_iff.2 ⟨rfl, fun i hi => ?_⟩
    rw [closing_prefix_drop_append hi]
    exact hfirst i hi
  simp only [lexeme?, hafter, hbreak, Option.map_some]

/-- A text that begins with an opening mark has a whole comment as its lexeme. -/
lemma isWholeComment_of_lexeme? (hopen : commentOpening <+: s)
    (h : lexeme? s = some (data, rest)) : IsWholeComment data := by
  obtain ⟨body, rfl⟩ := hopen
  have hafter : Text.after? commentOpening (commentOpening ++ body) = some body :=
    Text.after?_eq_some_iff.2 rfl
  simp only [lexeme?, hafter, Option.map_eq_some_iff, Prod.mk.injEq] at h
  obtain ⟨⟨inner, rest'⟩, hbreak, rfl, rfl⟩ := h
  obtain ⟨rfl, hfirst⟩ := Text.breakOn?_eq_some_iff.1 hbreak
  refine isWholeComment_iff.2 ⟨inner, rfl, fun i hi => ?_⟩
  rw [← closing_prefix_drop_append hi]
  exact hfirst i hi

/-! ### Literals -/

lemma literalRun_of_opening (h : commentOpening <+: s) : literalRun s = ([], s) := by
  cases s with
  | nil => simp [commentOpening] at h
  | cons c r => simp [literalRun, List.isPrefixOf_iff_prefix.2 h]

lemma literalRun_newline (s : Text) : literalRun ('\n' :: s) = (['\n'], s) := by
  simp [literalRun, commentOpening]

lemma literalRun_cons {c : Char} (hopen : ¬ commentOpening <+: c :: s) (hc : c ≠ '\n') :
    literalRun (c :: s) = (c :: (literalRun s).1, (literalRun s).2) := by
  simp only [literalRun, Text.isPrefixOf_eq_false_iff.2 hopen, Bool.false_eq_true, if_false,
    if_neg hc]

lemma isLiteral_singleton (c : Char) : IsLiteral [c] := by
  refine ⟨fun hin => ?_, by simp⟩
  have hlen := hin.length_le
  simp [commentOpening] at hlen

/-- A character in front of a literal makes another one if it is no newline and no opening mark
begins with it. -/
lemma isLiteral_cons {c : Char} (hne : s ≠ []) :
    IsLiteral (c :: s) ↔ ¬ commentOpening <+: c :: s ∧ c ≠ '\n' ∧ IsLiteral s := by
  constructor
  · rintro ⟨hunopened, hnewline⟩
    rw [List.infix_cons_iff, not_or] at hunopened
    rw [List.dropLast_cons_of_ne_nil hne, List.mem_cons, not_or] at hnewline
    exact ⟨hunopened.1, Ne.symm hnewline.1, hunopened.2, hnewline.2⟩
  · rintro ⟨hopen, hc, hunopened, hnewline⟩
    refine ⟨fun hin => ?_, ?_⟩
    · exact (List.infix_cons_iff.1 hin).elim hopen hunopened
    · rw [List.dropLast_cons_of_ne_nil hne, List.mem_cons, not_or]
      exact ⟨Ne.symm hc, hnewline⟩

/-- The opening mark does not overlap itself. -/
lemma opening_prefix_append {before : Text} (hrest : commentOpening <+: rest) :
    commentOpening <+: before ++ rest ↔ before = [] ∨ commentOpening <+: before := by
  constructor
  · intro hopen
    rcases List.prefix_or_prefix_of_prefix hopen (List.prefix_append before rest) with hin | hcut
    · exact Or.inr hin
    · -- the text before is a beginning of the mark
      obtain ⟨body, rfl⟩ := hrest
      rcases before with _ | ⟨a, _ | ⟨b, _ | ⟨c, _ | ⟨e, before⟩⟩⟩⟩
      · exact Or.inl rfl
      · simp [commentOpening] at hopen
      · simp [commentOpening] at hopen
      · simp [commentOpening] at hopen
      · have hwhole := hcut.eq_of_length_le (by simp [commentOpening])
        exact Or.inr (hwhole ▸ List.prefix_rfl)
  · rintro (rfl | hin)
    · exact hrest
    · exact hin.trans (List.prefix_append _ _)

/-- The opening mark has no newline, and so does not begin inside a literal that is cut where
literals are cut. -/
lemma IsLiteral.not_opening_prefix (h : IsLiteral data) (hne : data ≠ [])
    (hends : data.getLast? = some '\n' ∨ rest = [] ∨ commentOpening <+: rest) :
    ¬ commentOpening <+: data ++ rest := by
  intro hopen
  rcases hends with hline | rfl | hrest
  · rcases List.prefix_or_prefix_of_prefix hopen (List.prefix_append data rest) with hin | hcut
    · exact h.unopened hin.isInfix
    · have hmem : '\n' ∈ commentOpening := hcut.subset (List.mem_of_getLast? hline)
      simp [commentOpening] at hmem
  · exact h.unopened (by simpa using hopen.isInfix)
  · rcases (opening_prefix_append hrest).1 hopen with hnil | hin
    · exact hne hnil
    · exact h.unopened hin.isInfix

lemma literalRun_append (h : IsLiteral data) (hne : data ≠ [])
    (hends : data.getLast? = some '\n' ∨ rest = [] ∨ commentOpening <+: rest) :
    literalRun (data ++ rest) = (data, rest) := by
  induction data with
  | nil => exact absurd rfl hne
  | cons c t ih =>
    have hopen : ¬ commentOpening <+: c :: (t ++ rest) := h.not_opening_prefix hne hends
    by_cases ht : t = []
    · subst ht
      by_cases hc : c = '\n'
      · rw [hc]
        exact literalRun_newline rest
      · -- the run goes on into the rest, and ends at once
        have hrest : literalRun rest = ([], rest) := by
          rcases hends with hends | rfl | hopen
          · simp [hc] at hends
          · rfl
          · exact literalRun_of_opening hopen
        exact (literalRun_cons hopen hc).trans (by rw [List.nil_append, hrest])
    · obtain ⟨-, hc, hlit⟩ := (isLiteral_cons ht).1 h
      rw [List.getLast?_cons_of_ne_nil ht] at hends
      rw [List.cons_append, literalRun_cons hopen hc, ih hlit ht hends]

/-- A literal run is a literal, and is cut where literals are cut. -/
lemma isLiteral_literalRun (hs : s ≠ []) (hopen : ¬ commentOpening <+: s) :
    IsLiteral (literalRun s).1 ∧ ((literalRun s).1.getLast? = some '\n' ∨
      (literalRun s).2 = [] ∨ commentOpening <+: (literalRun s).2) := by
  induction s with
  | nil => exact absurd rfl hs
  | cons c r ih =>
    by_cases hc : c = '\n'
    · rw [hc, literalRun_newline]
      exact ⟨isLiteral_singleton _, Or.inl rfl⟩
    rw [literalRun_cons hopen hc]
    by_cases hr : r = []
    · subst hr
      exact ⟨isLiteral_singleton c, Or.inr (Or.inl rfl)⟩
    by_cases hopen' : commentOpening <+: r
    · rw [literalRun_of_opening hopen']
      exact ⟨isLiteral_singleton c, Or.inr (Or.inr hopen')⟩
    · -- the run goes on
      obtain ⟨hlit, hends⟩ := ih hr hopen'
      have hne : (literalRun r).1 ≠ [] := by
        obtain ⟨c', r', rfl⟩ := List.exists_cons_of_ne_nil hr
        exact literalRun_ne_nil (Text.isPrefixOf_eq_false_iff.2 hopen')
      refine ⟨(isLiteral_cons hne).2 ⟨fun hfront => hopen (hfront.trans ⟨(literalRun r).2, ?_⟩),
        hc, hlit⟩, ?_⟩
      · rw [List.cons_append, append_literalRun]
      · rwa [List.getLast?_cons_of_ne_nil hne]

/-! ### The lexeme of a text -/

/-- The lexeme of a text is the one beginning that is a lexeme. -/
theorem lexeme?_eq_some_iff (hs : s ≠ []) :
    lexeme? s = some (data, rest) ↔ data ++ rest = s ∧ IsLexeme data rest := by
  constructor
  · intro h
    refine ⟨append_of_lexeme? h, ?_⟩
    by_cases hopen : commentOpening <+: s
    · exact .comment (isWholeComment_of_lexeme? hopen h)
    · have hafter : Text.after? commentOpening s = none := by
        rw [Text.after?_eq_none_iff, Text.isPrefixOf_eq_false_iff]
        exact hopen
      have hrun : literalRun s = (data, rest) := by simpa [lexeme?, hafter] using h
      obtain ⟨hlit, hends⟩ := isLiteral_literalRun hs hopen
      rw [hrun] at hlit hends
      exact .literal (lexeme?_ne_nil hs h) hlit hends
  · rintro ⟨rfl, h⟩
    cases h with
    | comment h => exact lexeme?_of_isWholeComment h rest
    | literal hne hlit hends =>
      have hafter : Text.after? commentOpening (data ++ rest) = none := by
        rw [Text.after?_eq_none_iff, Text.isPrefixOf_eq_false_iff]
        exact hlit.not_opening_prefix hne hends
      simp only [lexeme?, hafter, literalRun_append hlit hne hends]

/-- A lexeme stays as it is when text is added behind what follows it, unless it is a literal
that only the end of the text has cut. -/
theorem lexeme?_append {more : Text} (hs : s ≠ []) (h : lexeme? s = some (data, rest))
    (hends : rest = [] → commentOpening <+: data ∨ data.getLast? = some '\n') :
    lexeme? (s ++ more) = some (data, rest ++ more) := by
  obtain ⟨rfl, hlexeme⟩ := (lexeme?_eq_some_iff hs).1 h
  refine (lexeme?_eq_some_iff (by simp [hlexeme.ne_nil])).2 ⟨by simp, ?_⟩
  cases hlexeme with
  | comment hcomment => exact .comment hcomment
  | literal hne hlit hcut =>
    refine .literal hne hlit ?_
    rcases hcut with hline | hnil | hopen
    · exact Or.inl hline
    · rcases hends hnil with hopen | hline
      · exact absurd hopen.isInfix hlit.unopened
      · exact Or.inl hline
    · exact Or.inr (Or.inr (hopen.trans (List.prefix_append _ _)))

end Block

end CommentMarkup
