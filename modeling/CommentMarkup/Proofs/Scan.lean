/-
# The blocks of a text

A scan cuts a text from left to right: the blocks make up the text (`flatMap_data_of_scan`),
each block begins where the ones before it end (`start_of_scan`), and so its characters stand
in the text at its offset (`data_at_of_mem_scan`).  A scan that fails does so at the offset of
an opening mark (`opening_at_of_scan_error`).
-/
import CommentMarkup.Directive
import Mathlib.Tactic.Lemma

namespace CommentMarkup.Block

variable {start offset : Nat} {s text data rest : Text} {blocks before after : List Block}
  {b : Block}

/-! ### One lexeme -/

lemma scanFrom_nil (start : Nat) : scanFrom start [] = .ok [] := by
  rw [scanFrom]
  simp

lemma scanFrom_of_lexeme?_eq_none (hs : s ≠ []) (h : lexeme? s = none) :
    scanFrom start s = .error start := by
  rw [scanFrom]
  simp only [hs, dif_neg, not_false_eq_true]
  split
  · rfl
  · next h' => simp [h] at h'

lemma scanFrom_of_lexeme? (hs : s ≠ []) (h : lexeme? s = some (data, rest)) :
    scanFrom start s = (scanFrom (start + data.length) rest).map (⟨start, data⟩ :: ·) := by
  rw [scanFrom]
  simp only [hs, dif_neg, not_false_eq_true]
  split
  · next h' => simp [h] at h'
  · next data' rest' h' =>
    obtain ⟨rfl, rfl⟩ := Prod.mk.inj (Option.some.inj (h.symm.trans h'))
    cases scanFrom (start + data.length) rest <;> rfl

/-- Only a text that begins with an opening mark has no lexeme. -/
lemma opening_prefix_of_lexeme?_eq_none (h : lexeme? s = none) : commentOpening <+: s := by
  simp only [lexeme?] at h
  split at h
  · next body hbody => exact ⟨body, Text.after?_eq_some_iff.1 hbody⟩
  · simp at h

/-! ### All lexemes -/

lemma flatMap_data_of_scanFrom (h : scanFrom start s = .ok blocks) :
    blocks.flatMap Block.data = s := by
  induction start, s using scanFrom.induct generalizing blocks with
  | case1 start =>
    rw [scanFrom_nil] at h
    simp [← Except.ok.inj h]
  | case2 start s hs hnone => simp [scanFrom_of_lexeme?_eq_none hs hnone] at h
  | case3 start s hs data rest hlexeme offset herror =>
    simp [scanFrom_of_lexeme? hs hlexeme, herror, Except.map] at h
  | case4 start s hs data rest hlexeme later hlater ih =>
    rw [scanFrom_of_lexeme? hs hlexeme, hlater] at h
    rw [← Except.ok.inj h, List.flatMap_cons, ih hlater]
    exact append_of_lexeme? hlexeme

lemma start_of_scanFrom (h : scanFrom start s = .ok (before ++ b :: after)) :
    b.start = start + (before.flatMap Block.data).length := by
  induction start, s using scanFrom.induct generalizing before with
  | case1 start => simp [scanFrom_nil] at h
  | case2 start s hs hnone => simp [scanFrom_of_lexeme?_eq_none hs hnone] at h
  | case3 start s hs data rest hlexeme offset herror =>
    simp [scanFrom_of_lexeme? hs hlexeme, herror, Except.map] at h
  | case4 start s hs data rest hlexeme later hlater ih =>
    rw [scanFrom_of_lexeme? hs hlexeme, hlater] at h
    cases before with
    | nil =>
      obtain ⟨rfl, -⟩ := List.cons.inj (Except.ok.inj h)
      simp
    | cons first more =>
      obtain ⟨rfl, rfl⟩ := List.cons.inj (Except.ok.inj h)
      rw [ih hlater, List.flatMap_cons, List.length_append, Nat.add_assoc]

/-- A scan that fails has cut the text up to a comment that has no lexeme. -/
lemma opening_of_scanFrom_error (h : scanFrom start s = .error offset) :
    ∃ before rest, s = before ++ rest ∧ offset = start + before.length ∧
      commentOpening <+: rest := by
  induction start, s using scanFrom.induct with
  | case1 start => simp [scanFrom_nil] at h
  | case2 start s hs hnone =>
    rw [scanFrom_of_lexeme?_eq_none hs hnone] at h
    obtain rfl := Except.error.inj h
    exact ⟨[], s, rfl, rfl, opening_prefix_of_lexeme?_eq_none hnone⟩
  | case3 start s hs data rest hlexeme offset' herror ih =>
    rw [scanFrom_of_lexeme? hs hlexeme, herror] at h
    obtain rfl := Except.error.inj h
    obtain ⟨before, rest', rfl, hoffset, hopening⟩ := ih herror
    refine ⟨data ++ before, rest', ?_, ?_, hopening⟩
    · rw [List.append_assoc, append_of_lexeme? hlexeme]
    · rw [hoffset, List.length_append, Nat.add_assoc]
  | case4 start s hs data rest hlexeme later hlater =>
    simp [scanFrom_of_lexeme? hs hlexeme, hlater, Except.map] at h

/-! ### Whole texts -/

/-- The blocks of a text make it up. -/
theorem flatMap_data_of_scan (h : scan text = .ok blocks) : blocks.flatMap Block.data = text :=
  flatMap_data_of_scanFrom h

/-- A block begins where the blocks before it end. -/
theorem start_of_scan (h : scan text = .ok (before ++ b :: after)) :
    b.start = (before.flatMap Block.data).length := by
  rw [start_of_scanFrom h, Nat.zero_add]

/-- The characters of a block stand in the text at its offset. -/
theorem data_at_of_mem_scan (h : scan text = .ok blocks) (hb : b ∈ blocks) :
    b.data <+: text.drop b.start := by
  obtain ⟨before, after, rfl⟩ := List.append_of_mem hb
  refine ⟨after.flatMap Block.data, ?_⟩
  rw [← flatMap_data_of_scan h, start_of_scan h, List.flatMap_append, List.drop_left,
    List.flatMap_cons]

lemma opening_at_of_mem_scan (h : scan text = .ok blocks) (hb : b ∈ blocks)
    (hcomment : b.isComment = true) : commentOpening <+: text.drop b.start :=
  (List.isPrefixOf_iff_prefix.1 hcomment).trans (data_at_of_mem_scan h hb)

/-- A scan fails at a comment. -/
theorem opening_at_of_scan_error (h : scan text = .error offset) :
    commentOpening <+: text.drop offset := by
  obtain ⟨before, rest, rfl, rfl, hopening⟩ := opening_of_scanFrom_error h
  rwa [Nat.zero_add, List.drop_left]

lemma isComment_of_isSpecial (h : b.isSpecial = true) : b.isComment = true := by
  rw [isSpecial, Bool.and_eq_true] at h
  exact h.1

lemma isSpecial_of_isDefinition (h : b.isDefinition = true) : b.isSpecial = true := by
  rw [isDefinition, Bool.and_eq_true] at h
  exact h.1

end CommentMarkup.Block
