/-
# Paths and their components

A path that is put together from components has them as its components again, and begins at the
root if its anchor is not the relative one.  So the tidy form of a path has its components, and a
path that is read from a base directory has those of the base before its own
(`components_within`).
-/
import CommentMarkup.Path.Suffix
import CommentMarkup.Proofs.Path.NormalForm

namespace CommentMarkup.Path

/-- Texts that can be the components of a path. -/
def AreParts (cs : List Text) : Prop := ∀ c ∈ cs, c ≠ [] ∧ c ≠ here ∧ '/' ∉ c

variable {a : Anchor} {cs : List Text} {base p u v : Path}

lemma areParts_components (p : Path) : AreParts (components p) := fun _ hc => of_mem_components hc

lemma areParts_of_proper (h : ∀ c ∈ cs, IsProper c) : AreParts cs :=
  fun c hc => ⟨(h c hc).ne_nil, (h c hc).ne_here, (h c hc).not_mem⟩

lemma AreParts.ne_nil_and_not_mem (h : AreParts cs) : ∀ c ∈ cs, c ≠ [] ∧ '/' ∉ c :=
  fun c hc => ⟨(h c hc).1, (h c hc).2.2⟩

lemma AreParts.intercalate_ne_nil (h : AreParts cs) (hne : cs ≠ []) :
    List.intercalate ['/'] cs ≠ [] := by
  cases cs with
  | nil => exact absurd rfl hne
  | cons c rest =>
    have hc := (h c List.mem_cons_self).1
    cases rest with
    | nil => rwa [List.intercalate_singleton]
    | cons next rest => simp [List.intercalate_cons_cons]

/-! ### Paths from components -/

lemma components_ofComponents (h : AreParts cs) : components (ofComponents a cs) = cs := by
  have hfilter : (cs.filter fun c => decide (c ≠ []) && decide (c ≠ here)) = cs := by
    rw [List.filter_eq_self]
    intro c hc
    simp [(h c hc).1, (h c hc).2.1]
  simp only [ofComponents]
  split
  · next hempty =>
    -- only the current directory has no text of its own
    have hnil : cs = [] := by
      by_contra hne
      exact h.intercalate_ne_nil hne (List.append_eq_nil_iff.1 hempty).2
    rw [hnil]
    rfl
  · rw [components_anchor_append, components_intercalate fun c hc => (h c hc).2.2, hfilter]

lemma isAbsolute_relative (h : ∀ c ∈ cs, c ≠ [] ∧ '/' ∉ c) :
    isAbsolute (ofComponents .relative cs) = false := by
  have hhead := head?_intercalate_ne h
  simp only [ofComponents]
  split
  · rfl
  · exact decide_eq_false hhead

/-- A path begins where its anchor says. -/
lemma isAbsolute_ofComponents_iff (h : ∀ c ∈ cs, c ≠ [] ∧ '/' ∉ c) :
    isAbsolute (ofComponents a cs) = true ↔ a ≠ .relative := by
  constructor
  · rintro habsolute rfl
    rw [isAbsolute_relative h] at habsolute
    exact Bool.false_ne_true habsolute
  · exact fun ha => isAbsolute_ofComponents ha cs

lemma isAbsolute_ofComponents_anchor (h : ∀ c ∈ cs, c ≠ [] ∧ '/' ∉ c) (p : Path) :
    isAbsolute (ofComponents (anchor p) cs) = isAbsolute p := by
  rw [Bool.eq_iff_iff, isAbsolute_ofComponents_iff h, anchor_ne_relative_iff]

lemma components_tidy (p : Path) : components (tidy p) = components p :=
  components_ofComponents (areParts_components p)

lemma isAbsolute_tidy (p : Path) : isAbsolute (tidy p) = isAbsolute p :=
  isAbsolute_ofComponents_anchor (areParts_components p).ne_nil_and_not_mem p

lemma tidy_ne_nil (p : Path) : tidy p ≠ [] := by
  simp only [tidy, ofComponents]
  split
  · simp [here]
  · assumption

lemma areParts_dropLast (h : AreParts cs) : AreParts cs.dropLast :=
  fun c hc => h c ((List.dropLast_prefix cs).subset hc)

lemma components_parent (p : Path) : components (parent p) = (components p).dropLast :=
  components_ofComponents (areParts_dropLast (areParts_components p))

lemma isAbsolute_parent (p : Path) : isAbsolute (parent p) = isAbsolute p :=
  isAbsolute_ofComponents_anchor
    (areParts_dropLast (areParts_components p)).ne_nil_and_not_mem p

/-! ### Joining -/

/-- A separator stands between components. -/
lemma components_append_separator (u v : Path) :
    components (u ++ '/' :: v) = components u ++ components v := by
  rw [components, List.splitOn_append_cons_self, List.filter_append]
  rfl

lemma components_join (h : isAbsolute p = false) :
    components (join base p) = components base ++ components p := by
  unfold join
  simp only [h, Bool.false_eq_true, if_false]
  split
  · next hbase =>
    rcases hbase with rfl | hlast
    · rfl
    · obtain ⟨u, rfl⟩ := List.getLast?_eq_some_iff.1 hlast
      have hend : components (u ++ ['/']) = components u := by
        rw [components_append_separator]
        exact List.append_nil _
      rw [hend, List.append_assoc]
      exact components_append_separator u p
  · exact components_append_separator base p

lemma isAbsolute_join_of_relative (hbase : base ≠ []) (h : isAbsolute p = false) :
    isAbsolute (join base p) = isAbsolute base := by
  obtain ⟨c, r, rfl⟩ := List.exists_cons_of_ne_nil hbase
  unfold join
  simp only [h, Bool.false_eq_true, if_false]
  split <;> rfl

/-- A path that is read from a base directory goes through it. -/
lemma components_within (h : isAbsolute p = false) :
    components (within base p) = components base ++ components p :=
  (components_tidy _).trans (components_join h)

lemma isAbsolute_within (hbase : base ≠ []) (h : isAbsolute p = false) :
    isAbsolute (within base p) = isAbsolute base :=
  (isAbsolute_tidy _).trans (isAbsolute_join_of_relative hbase h)

/-! ### Suffixes -/

/-- A name has more characters than its suffix. -/
lemma length_suffix_lt {name : Text} (h : name ≠ []) : (suffix name).length < name.length := by
  simp only [suffix]
  split
  · next hsuffix => exact hsuffix.2
  · exact List.length_pos_iff.2 h

lemma not_mem_of_isSuffix {s : Text} (h : isSuffix s = true) : '/' ∉ s := by
  simp only [isSuffix, Bool.or_eq_true, Bool.and_eq_true, decide_eq_true_eq] at h
  rcases h with rfl | ⟨-, hs⟩
  · simp
  · simpa using hs

/-- A file name with another suffix is a file name again. -/
lemma ne_nil_and_not_mem_of_stem {s name : Text} (hs : isSuffix s = true) (hne : name ≠ [])
    (hname : '/' ∉ name) :
    name.take (name.length - (suffix name).length) ++ s ≠ [] ∧
      '/' ∉ name.take (name.length - (suffix name).length) ++ s := by
  have hlength := length_suffix_lt hne
  constructor
  · intro hnil
    have hstem := congrArg List.length (List.append_eq_nil_iff.1 hnil).1
    simp only [List.length_take, List.length_nil] at hstem
    omega
  · rw [List.mem_append, not_or]
    exact ⟨fun hmem => hname (List.mem_of_mem_take hmem), not_mem_of_isSuffix hs⟩

/-- Another suffix leaves the beginning of a path as it is. -/
lemma isAbsolute_withSuffix {s file : Text} (h : withSuffix s p = .ok file) :
    isAbsolute file = isAbsolute p := by
  unfold withSuffix at h
  split at h
  · simp at h
  · next hsuffix =>
    split at h
    · simp at h
    · next hname =>
      have hmem : lastName p ∈ components p := by
        cases hlast : (components p).getLast? with
        | none => simp [lastName, hlast] at hname
        | some c =>
          rw [lastName, hlast]
          exact List.mem_of_getLast? hlast
      rw [← Except.ok.inj h]
      refine isAbsolute_ofComponents_anchor (fun c hc => ?_) p
      rcases List.mem_append.1 hc with hc | hc
      · exact (areParts_dropLast (areParts_components p)).ne_nil_and_not_mem c hc
      · rw [List.mem_singleton.1 hc]
        exact ne_nil_and_not_mem_of_stem (Bool.not_eq_false _ ▸ hsuffix) hname
          (areParts_components p _ hmem).2.2

end CommentMarkup.Path
