/-
# Texts

A text is the list of its characters.  Documents, variable names, paths and messages are
all texts, so every offset, column and length of the library counts characters.  This file
has the one search that the rest of the library needs: the first occurrence of a mark.
-/

namespace CommentMarkup

/-- A text is the list of its characters. -/
abbrev Text := List Char

namespace Text

/-- What follows a mark that the text begins with. -/
def after? (mark s : Text) : Option Text :=
  if mark.isPrefixOf s then some (s.drop mark.length) else none

theorem after?_eq_some_iff {mark s r : Text} : after? mark s = some r ↔ mark ++ r = s := by
  simp only [after?]
  constructor
  · intro h
    split at h
    · next hp =>
      obtain ⟨t, rfl⟩ := List.isPrefixOf_iff_prefix.1 hp
      simpa using h.symm
    · simp at h
  · rintro rfl
    simp [List.isPrefixOf_iff_prefix.2 (List.prefix_append mark r)]

theorem after?_eq_none_iff {mark s : Text} :
    after? mark s = none ↔ mark.isPrefixOf s = false := by
  simp only [after?]
  cases mark.isPrefixOf s <;> simp

/-- The text before the first occurrence of a mark, and the text after it. -/
def breakOn? (mark : Text) : Text → Option (Text × Text)
  | [] => if mark = [] then some ([], []) else none
  | c :: r =>
    match after? mark (c :: r) with
    | some rest => some ([], rest)
    | none => (breakOn? mark r).map fun p => (c :: p.1, p.2)

/-- Whether a text occurs inside another one. -/
def occursIn (part whole : Text) : Bool := (breakOn? part whole).isSome

/-- Breaking a text at a mark loses nothing. -/
theorem append_of_breakOn? {mark s a b : Text} (h : breakOn? mark s = some (a, b)) :
    a ++ mark ++ b = s := by
  induction s generalizing a b with
  | nil =>
    simp only [breakOn?] at h
    split at h
    · simp_all
    · simp at h
  | cons c r ih =>
    simp only [breakOn?] at h
    split at h
    · next rest hrest =>
      simp only [Option.some.injEq, Prod.mk.injEq] at h
      obtain ⟨rfl, rfl⟩ := h
      simpa using after?_eq_some_iff.1 hrest
    · simp only [Option.map_eq_some_iff, Prod.mk.injEq] at h
      obtain ⟨p, hp, rfl, rfl⟩ := h
      simp [← ih hp]

/-- Sorting by the order of code points, which is the order in which sets of names and
paths are reported. -/
def sorted (items : List (Text × α)) : List (Text × α) :=
  items.mergeSort fun x y => !decide (y.1 < x.1)

end Text

end CommentMarkup
