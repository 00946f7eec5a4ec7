/-
# Lines and columns as coordinates

The position of an offset says how many lines end before it and how far it is from the beginning of
its own line.  A line begins where the lines before it end, so an offset can be computed back from
its position, and of two offsets the later one has the later position.  Whole lines in front of a
text move its lines and nothing else.  Together this is `ofOffset_coordinates`.
-/
import CommentMarkup.Position
import Mathlib.Data.List.Induction
import Mathlib.Tactic.Lemma

namespace CommentMarkup

namespace Text

/-- The number of characters in some of the first lines of a text, with the newlines that end
them. -/
def lineOffset (s : Text) (lines : Nat) : Nat :=
  (((s.splitOn '\n').take lines).flatMap (· ++ ['\n'])).length

/-- A newline ends one line more than have been ended before it. -/
lemma lineOffset_newline (s t : Text) :
    lineOffset (s ++ '\n' :: t) (s.count '\n' + 1) = s.length + 1 := by
  induction s with
  | nil => simp [lineOffset, List.splitOn_cons_eq_if_modifyHead]
  | cons c s ih =>
    rw [lineOffset] at ih ⊢
    rw [List.cons_append, List.splitOn_cons_eq_if_modifyHead]
    by_cases hc : c = '\n'
    · -- the first line is empty
      subst hc
      simp only [beq_self_eq_true, if_true, List.count_cons_self, List.take_succ_cons,
        List.flatMap_cons, List.length_append, ih, List.length_nil, List.length_cons]
      omega
    · -- the first line has one more character
      obtain ⟨first, more, hlines⟩ :=
        List.exists_cons_of_ne_nil (List.splitOn_ne_nil '\n' (s ++ '\n' :: t))
      have hother : (c == '\n') = false := beq_eq_false_iff_ne.2 hc
      rw [hlines] at ih ⊢
      simp only [hother, Bool.false_eq_true, if_false, List.modifyHead_cons, List.count_cons_of_ne hc,
        List.take_succ_cons, List.flatMap_cons, List.length_append, List.length_cons] at ih ⊢
      omega

end Text

namespace Position

/-- One position comes before another one: in an earlier line, or earlier in the same line. -/
def Precedes (p q : Position) : Prop := p.line < q.line ∨ p.line = q.line ∧ p.column < q.column

variable {s t text : Text} {i j : Nat}

/-! ### The last line -/

lemma lastLineStart_concat (s : Text) (c : Char) :
    lastLineStart (s ++ [c]) = if c = '\n' then s.length + 1 else lastLineStart s := by
  rw [lastLineStart, List.reverse_concat, List.takeWhile_cons, List.length_append]
  by_cases hc : c = '\n'
  · simp [hc]
  · simp [hc, lastLineStart]

lemma lastLineStart_le (s : Text) : lastLineStart s ≤ s.length := Nat.sub_le _ _

/-- The last line begins behind all the lines that have been ended, whatever comes later. -/
lemma lineOffset_count (s t : Text) : (s ++ t).lineOffset (s.count '\n') = lastLineStart s := by
  induction s using List.reverseRecOn generalizing t with
  | nil => rfl
  | append_singleton s c ih =>
    rw [lastLineStart_concat, List.append_assoc, List.singleton_append, List.count_append,
      List.count_singleton]
    by_cases hc : c = '\n'
    · subst hc
      simpa using Text.lineOffset_newline s t
    · simpa [hc] using ih (c :: t)

/-- Whole lines in front of a text move its last line. -/
lemma lastLineStart_append (hs : s.getLast? = some '\n') (t : Text) :
    lastLineStart (s ++ t) = s.length + lastLineStart t := by
  induction t using List.reverseRecOn with
  | nil =>
    obtain ⟨u, rfl⟩ := List.getLast?_eq_some_iff.1 hs
    rw [List.append_nil, lastLineStart_concat]
    simp [lastLineStart]
  | append_singleton t c ih =>
    rw [← List.append_assoc, lastLineStart_concat, lastLineStart_concat, ih, List.length_append]
    split
    · rw [Nat.add_assoc]
    · rfl

/-! ### Positions of offsets -/

lemma ofOffset_natCast (text : Text) (i : Nat) :
    ofOffset text i
      = { line := (text.take i).count '\n' + 1
          column := i - lastLineStart (text.take i) + 1 } := by
  have hbefore : textBefore text i = text.take i := by
    have hi : ¬ (i : Int) < 0 := by omega
    rw [textBefore, if_neg hi, Int.toNat_natCast]
  rw [ofOffset, hbefore]

lemma lineOffset_take (text : Text) (i : Nat) :
    text.lineOffset ((text.take i).count '\n') = lastLineStart (text.take i) := by
  have hcount := lineOffset_count (text.take i) (text.drop i)
  rwa [List.take_append_drop] at hcount

/-- An offset is as far behind the beginning of its line as its column says. -/
lemma eq_lineOffset_add_column (text : Text) (i : Nat) :
    (i : Int)
      = text.lineOffset ((ofOffset text i).line - 1).toNat + (ofOffset text i).column - 1 := by
  have hline : ((text.take i).count '\n' + 1 - 1 : Int).toNat = (text.take i).count '\n' := by omega
  rw [ofOffset_natCast]
  simp only [hline, lineOffset_take]
  omega

/-- Later offsets have later positions. -/
lemma precedes_ofOffset (text : Text) (hij : i < j) :
    (ofOffset text i).Precedes (ofOffset text j) := by
  have hprefix : text.take i <+: text.take j := List.take_prefix_take_left (by omega)
  have hcount := hprefix.sublist.count_le '\n'
  rw [ofOffset_natCast, ofOffset_natCast]
  rcases Nat.lt_or_eq_of_le hcount with hlt | heq
  · left
    simp only
    omega
  · -- the offsets are in one line, which has one beginning
    have hstart : lastLineStart (text.take i) = lastLineStart (text.take j) := by
      rw [← lineOffset_take, ← lineOffset_take, heq]
    right
    simp only [heq, hstart, true_and]
    omega

lemma one_le_ofOffset (hi : i ≤ text.length) :
    1 ≤ (ofOffset text i).line ∧ 1 ≤ (ofOffset text i).column := by
  have hle := lastLineStart_le (text.take i)
  rw [List.length_take_of_le hi] at hle
  rw [ofOffset_natCast]
  simp only
  omega

lemma ofOffset_behind {before : Text} (h : before.getLast? = some '\n') (text : Text) (i : Nat) :
    ofOffset (before ++ text) ((before.length + i : Nat) : Int)
      = { line := (ofOffset text i).line + before.count '\n'
          column := (ofOffset text i).column } := by
  rw [ofOffset_natCast, ofOffset_natCast, List.take_length_add_append, List.count_append,
    lastLineStart_append h]
  simp only [mk.injEq]
  omega

/-- Positions as coordinates of the offsets of a text.

Later offsets have later positions, so no two offsets share one.  In a text, lines and columns are
counted from one, and an offset is the number of characters before it: those of the lines above its
own, newlines included, and those before its column.  Behind a text that ends with a newline, the
columns stay, and the lines are moved by the newlines of that text. -/
theorem ofOffset_coordinates (text : Text) :
    (∀ i j : Nat, i < j → (ofOffset text i).Precedes (ofOffset text j)) ∧
      (∀ i j : Nat, ofOffset text i = ofOffset text j → i = j) ∧
      (∀ i : Nat, i ≤ text.length →
        1 ≤ (ofOffset text i).line ∧ 1 ≤ (ofOffset text i).column ∧
          (i : Int) = text.lineOffset ((ofOffset text i).line - 1).toNat
            + (ofOffset text i).column - 1) ∧
      ∀ (before : Text) (i : Nat), before.getLast? = some '\n' →
        ofOffset (before ++ text) ((before.length + i : Nat) : Int)
          = { line := (ofOffset text i).line + before.count '\n'
              column := (ofOffset text i).column } := by
  refine ⟨fun i j hij => precedes_ofOffset text hij, fun i j hsame => ?_, fun i hi => ?_,
    fun before i h => ofOffset_behind h text i⟩
  · have hi := eq_lineOffset_add_column text i
    rw [hsame, ← eq_lineOffset_add_column text j] at hi
    exact Int.ofNat_inj.1 hi
  · obtain ⟨hline, hcolumn⟩ := one_le_ofOffset hi
    exact ⟨hline, hcolumn, eq_lineOffset_add_column text i⟩

/-- A newline, the offset behind it, and the end of the text. -/
theorem ofOffset_coordinates_of_newline :
    let text : Text := "ab\n\nc".toList
    (ofOffset text 2).Precedes (ofOffset text 3) ∧ (ofOffset text 3).Precedes (ofOffset text 5) ∧
      ofOffset text 2 = ⟨1, 3⟩ ∧ ofOffset text 3 = ⟨2, 1⟩ ∧ ofOffset text 5 = ⟨3, 2⟩ ∧
      (5 : Int) = text.lineOffset 2 + 2 - 1 ∧
      ofOffset ("x\n".toList ++ text) 7 = ⟨4, 2⟩ := by
  intro text
  obtain ⟨hprecedes, -, hexact, hbehind⟩ := ofOffset_coordinates text
  exact ⟨hprecedes 2 3 (by decide), hprecedes 3 5 (by decide), by decide,
    by decide, by decide, (hexact 5 (by decide)).2.2, hbehind "x\n".toList 5 (by decide)⟩

end Position

end CommentMarkup
