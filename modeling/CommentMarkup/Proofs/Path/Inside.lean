/-
# Paths inside a directory

A path that is read from a directory leads to something inside it, whatever the directory is, if it
is relative, and if something is left of it but no way up when its `..` components are resolved by
themselves (`IsInner`).  Only such a path does (`isInner_iff`): an absolute path does not depend on
the directory, and a way up that is left leads out of a directory whose name it does not repeat.

The components of a path are gone through one after the other.  As long as there is something to go
up from, what is gone through is the same behind a directory as it is by itself (`climb_behind`).
-/
import CommentMarkup.Proofs.Path.Parts
import Mathlib.Algebra.Order.BigOperators.Group.List
import Mathlib.Algebra.Order.Group.Nat

namespace CommentMarkup.Path

variable {cs reversed below : List Text} {c x : Text} {cwd base p : Path}

/-- A path that goes on from a directory. -/
structure Inside (directory p : Path) : Prop where
  /-- Both begin in the same way. -/
  same_anchor : anchor p = anchor directory
  /-- There are components behind those of the directory. -/
  goes_on : ∃ rest, rest ≠ [] ∧ components p = components directory ++ rest

/-- A path that leads to something inside the directory that it is read from. -/
structure IsInner (p : Path) : Prop where
  /-- It depends on the directory. -/
  relative : isAbsolute p = false
  /-- It does not lead back to the directory. -/
  ne_nil : reduce false (components p) ≠ []
  /-- It does not lead up from the directory. -/
  not_above : above ∉ reduce false (components p)

/-! ### Going up -/

/-- A way up that is left stays. -/
lemma above_mem_climb (h : above ∈ reversed) : above ∈ climb false reversed c := by
  unfold climb
  split
  · cases reversed with
    | nil => simp at h
    | cons last before =>
      by_cases hlast : last = above
      · simp [hlast]
      · simpa [hlast, Ne.symm hlast] using h
  · exact List.mem_cons_of_mem _ h

lemma above_mem_foldl_climb (h : above ∈ reversed) : above ∈ cs.foldl (climb false) reversed := by
  induction cs generalizing reversed with
  | nil => exact h
  | cons c rest ih => exact ih (above_mem_climb h)

/-- If there is something to go up from, it does not matter what is before it. -/
lemma climb_behind (h : above ∉ climb false reversed c) :
    climb true (reversed ++ below) c = climb false reversed c ++ below := by
  have hnot : above ∉ reversed := fun hmem => h (above_mem_climb hmem)
  unfold climb at h ⊢
  split
  · next habove =>
    rw [if_pos habove] at h
    cases reversed with
    | nil => simp at h
    | cons last before =>
      have hlast : last ≠ above := by
        rintro rfl
        exact hnot List.mem_cons_self
      simp [hlast]
  · simp

lemma foldl_climb_behind (h : above ∉ cs.foldl (climb false) reversed) :
    cs.foldl (climb true) (reversed ++ below) = cs.foldl (climb false) reversed ++ below := by
  induction cs generalizing reversed with
  | nil => rfl
  | cons c rest ih =>
    rw [List.foldl_cons] at h
    have hc : above ∉ climb false reversed c := fun hmem => h (above_mem_foldl_climb hmem)
    rw [List.foldl_cons, List.foldl_cons, climb_behind hc]
    exact ih h

/-- What is left of some components behind others, if no way up is left of them. -/
lemma reduce_append (before : List Text) (h : above ∉ reduce false cs) :
    reduce true (before ++ cs) = reduce true before ++ reduce false cs := by
  rw [reduce, List.mem_reverse] at h
  have hbehind : cs.foldl (climb true) ([] ++ before.foldl (climb true) [])
      = cs.foldl (climb false) [] ++ before.foldl (climb true) [] := foldl_climb_behind h
  rw [List.nil_append] at hbehind
  rw [reduce, List.foldl_append, hbehind, List.reverse_append]
  rfl

/-- Nothing is left that has not been there. -/
lemma mem_of_mem_climb (h : x ∈ climb true reversed c) : x ∈ c :: reversed := by
  unfold climb at h
  split at h
  · cases reversed with
    | nil => simp at h
    | cons last before =>
      by_cases hlast : last = above
      · next habove => simpa [hlast, habove] using h
      · simp only [hlast, if_false] at h
        exact List.mem_cons_of_mem _ (List.mem_cons_of_mem _ h)
  · exact h

lemma mem_of_mem_foldl_climb (h : x ∈ cs.foldl (climb true) reversed) :
    x ∈ reversed ∨ x ∈ cs := by
  induction cs generalizing reversed with
  | nil => exact Or.inl h
  | cons c rest ih =>
    rcases ih h with hx | hx
    · rcases List.mem_cons.1 (mem_of_mem_climb hx) with rfl | hx
      · exact Or.inr List.mem_cons_self
      · exact Or.inl hx
    · exact Or.inr (List.mem_cons_of_mem _ hx)

/-- A way up begins where there is nothing to go up from. -/
lemma eq_nil_of_above_mem_climb (hnot : above ∉ reversed) (h : above ∈ climb false reversed c) :
    c = above ∧ reversed = [] := by
  unfold climb at h
  split at h
  · next habove =>
    cases reversed with
    | nil => exact ⟨habove, rfl⟩
    | cons last before =>
      rw [List.mem_cons, not_or] at hnot
      simp only [Ne.symm hnot.1, if_false] at h
      exact absurd h hnot.2
  · next habove =>
    rcases List.mem_cons.1 h with h | h
    · exact absurd h.symm habove
    · exact absurd h hnot

/-- A way up that is left leads out of a directory, and not back into it without its name. -/
lemma not_mem_of_above_mem (hcs : x ∉ cs) (hnot : above ∉ reversed)
    (h : above ∈ cs.foldl (climb false) reversed) :
    x ∉ cs.foldl (climb true) (reversed ++ [x]) := by
  induction cs generalizing reversed with
  | nil => exact absurd h hnot
  | cons c rest ih =>
    rw [List.mem_cons, not_or] at hcs
    rw [List.foldl_cons] at h ⊢
    by_cases hc : above ∈ climb false reversed c
    · obtain ⟨rfl, rfl⟩ := eq_nil_of_above_mem_climb hnot hc
      have hroot : climb true ([] ++ [x]) above = [] := by simp [climb, hcs.1]
      rw [hroot]
      intro hmem
      rcases mem_of_mem_foldl_climb hmem with hmem | hmem
      · simp at hmem
      · exact hcs.2 hmem
    · rw [climb_behind hc]
      exact ih hcs.2 hc h

/-! ### Absolute paths -/

lemma anchor_ofComponents {a : Anchor} (ha : a ≠ .relative) (hcs : AreParts cs) :
    anchor (ofComponents a cs) = a := by
  rw [ofComponents_eq ha, anchor_append_intercalate ha hcs.ne_nil_and_not_mem]

lemma areParts_reduce (p : Path) : AreParts (reduce true (components p)) :=
  areParts_of_proper (reduce_proper fun _ hc => of_mem_components hc)

/-- The parts of an absolute path. -/
lemma absolute_eq (hcwd : isAbsolute cwd = true) (p : Path) :
    absolute cwd p = ofComponents (anchor (join cwd p)) (reduce true (components (join cwd p))) := by
  have ha := anchor_ne_relative_iff.2 (isAbsolute_join hcwd p)
  rw [absolute, normalize, decide_eq_true ha]

lemma components_absolute (hcwd : isAbsolute cwd = true) (p : Path) :
    components (absolute cwd p) = reduce true (components (join cwd p)) := by
  rw [absolute_eq hcwd, components_ofComponents (areParts_reduce _)]

lemma anchor_absolute (hcwd : isAbsolute cwd = true) (p : Path) :
    anchor (absolute cwd p) = anchor (join cwd p) := by
  have ha := anchor_ne_relative_iff.2 (isAbsolute_join hcwd p)
  rw [absolute_eq hcwd, anchor_ofComponents ha (areParts_reduce _)]

/-- A path that is read from an absolute one begins like it. -/
lemma anchor_join (hbase : isAbsolute base = true) (hp : isAbsolute p = false) :
    anchor (join base p) = anchor base := by
  obtain ⟨r, rfl⟩ := exists_of_isAbsolute hbase
  rcases r with _ | ⟨c, _ | ⟨d, r⟩⟩
  · -- the root itself: what follows does not begin with a separator
    cases p with
    | nil => simp [join, isAbsolute]
    | cons c p =>
      have hc : c ≠ '/' := by simpa [isAbsolute] using hp
      simp [join, isAbsolute, hc, anchor]
  · by_cases hc : c = '/'
    · subst hc
      cases p with
      | nil => simp [join, isAbsolute]
      | cons d p =>
        have hd : d ≠ '/' := by simpa [isAbsolute] using hp
        simp [join, isAbsolute, hd, anchor]
    · simp [join, hp, hc, anchor]
  · unfold join
    simp only [hp, Bool.false_eq_true, if_false]
    by_cases hc : c = '/'
    · by_cases hd : d = '/'
      · split <;> simp [hc, hd, anchor]
      · split <;> simp [hc, hd, anchor]
    · split <;> simp [hc, anchor]

lemma anchor_tidy (hp : isAbsolute p = true) : anchor (tidy p) = anchor p :=
  anchor_ofComponents (anchor_ne_relative_iff.2 hp) (areParts_components p)

lemma components_join_within (hbase : base ≠ []) (hp : isAbsolute p = false) :
    components (join cwd (within base p)) = components (join cwd base) ++ components p := by
  cases habsolute : isAbsolute base with
  | true =>
    have hwithin : isAbsolute (within base p) = true := (isAbsolute_within hbase hp).trans habsolute
    rw [join, if_pos hwithin, join, if_pos habsolute, components_within hp]
  | false =>
    have hwithin : isAbsolute (within base p) = false :=
      (isAbsolute_within hbase hp).trans habsolute
    rw [components_join hwithin, components_join habsolute, components_within hp,
      List.append_assoc]

lemma anchor_join_within (hcwd : isAbsolute cwd = true) (hbase : base ≠ [])
    (hp : isAbsolute p = false) : anchor (join cwd (within base p)) = anchor (join cwd base) := by
  cases habsolute : isAbsolute base with
  | true =>
    have hwithin : isAbsolute (within base p) = true := (isAbsolute_within hbase hp).trans habsolute
    have hjoin : isAbsolute (join base p) = true := isAbsolute_join habsolute p
    rw [join, if_pos hwithin, join, if_pos habsolute, within, anchor_tidy hjoin,
      anchor_join habsolute hp]
  | false =>
    have hwithin : isAbsolute (within base p) = false :=
      (isAbsolute_within hbase hp).trans habsolute
    rw [anchor_join hcwd hwithin, anchor_join hcwd habsolute]

/-! ### Paths that lead inside -/

/-- An inner path that is read from a directory leads to something inside it. -/
lemma IsInner.inside (h : IsInner p) (hcwd : isAbsolute cwd = true) (hbase : base ≠ []) :
    Inside (absolute cwd base) (absolute cwd (within base p)) := by
  constructor
  · rw [anchor_absolute hcwd, anchor_absolute hcwd, anchor_join_within hcwd hbase h.relative]
  · refine ⟨reduce false (components p), h.ne_nil, ?_⟩
    rw [components_absolute hcwd, components_absolute hcwd, components_join_within hbase h.relative,
      reduce_append _ h.not_above]

/-- There is a name that is not one of some others. -/
lemma exists_isProper_not_mem (cs : List Text) : ∃ x, IsProper x ∧ x ∉ cs := by
  refine ⟨List.replicate ((cs.map List.length).sum + 3) 'x', ⟨?_, ?_, ?_, ?_⟩, fun hmem => ?_⟩
  · simp
  · intro h
    have hlength := congrArg List.length h
    simp [here] at hlength
  · intro h
    have hlength := congrArg List.length h
    simp [above] at hlength
  · intro h
    have hx := List.eq_of_mem_replicate h
    simp at hx
  · -- it is longer than all of them together
    have hle := List.le_sum_of_mem (List.mem_map_of_mem hmem (f := List.length))
    rw [List.length_replicate] at hle
    omega

lemma components_of_isProper (hx : IsProper x) : components ('/' :: x) = [x] := by
  have hproper : ∀ c ∈ [x], IsProper c := List.forall_mem_singleton.2 hx
  have hread : components (List.intercalate ['/'] [x]) = [x] := by
    rw [components_intercalate fun c hc => (hproper c hc).not_mem, filter_eq_self_of_proper hproper]
  rwa [List.intercalate_singleton, ← components_separator_cons] at hread

/-- A path leads inside every directory that it is read from exactly if it is inner. -/
theorem isInner_iff : IsInner p ↔ ∀ cwd base, isAbsolute cwd = true → base ≠ [] →
    Inside (absolute cwd base) (absolute cwd (within base p)) := by
  constructor
  · intro h cwd base hcwd hbase
    exact h.inside hcwd hbase
  · intro h
    -- a directory below the root whose name does not occur in the path
    obtain ⟨x, hx, hfresh⟩ := exists_isProper_not_mem (components p)
    have hroot : isAbsolute ['/'] = true := rfl
    have hread : components (join ['/'] ('/' :: x)) = [x] := components_of_isProper hx
    have hdirectory : components (absolute ['/'] ('/' :: x)) = [x] := by
      rw [components_absolute hroot, hread, reduce_of_proper (List.forall_mem_singleton.2 hx)]
    obtain ⟨-, rest, hrest, hgoes⟩ := h ['/'] ('/' :: x) hroot (by simp)
    rw [hdirectory, components_absolute hroot] at hgoes
    have hmem : x ∈ [x] ++ rest := List.mem_cons_self
    rw [← hgoes] at hmem
    cases hp : isAbsolute p with
    | true =>
      -- an absolute path does not go through the directory
      have hwithin : within ('/' :: x) p = tidy p := by rw [within, join, if_pos hp]
      have habsolute : isAbsolute (tidy p) = true := (isAbsolute_tidy p).trans hp
      rw [hwithin, join, if_pos habsolute, components_tidy, reduce, List.mem_reverse] at hmem
      rcases mem_of_mem_foldl_climb hmem with hmem | hmem
      · simp at hmem
      · exact absurd hmem hfresh
    | false =>
      rw [components_join_within (by simp) hp, hread] at hgoes hmem
      have hnot : above ∉ reduce false (components p) := by
        intro habove
        rw [reduce, List.mem_reverse] at habove hmem
        have hout := not_mem_of_above_mem hfresh (List.not_mem_nil) habove
        have hfirst : climb true [] x = [] ++ [x] := if_neg hx.ne_above
        rw [List.singleton_append, List.foldl_cons, hfirst] at hmem
        exact hout hmem
      refine ⟨hp, fun hnil => hrest ?_, hnot⟩
      rw [reduce_append _ hnot, hnil, reduce_of_proper (List.forall_mem_singleton.2 hx)] at hgoes
      exact (List.append_cancel_left hgoes).symm

end CommentMarkup.Path
