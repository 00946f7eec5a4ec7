/-
# Changes of a file tree

What a change leaves alone.  Making directories only adds directories, and only at places that the
path goes through (`makeDirectories_grows`), whether it succeeds or not.  Writing a file changes
nothing but what is at its place (`write_eq_ok`), and the path still leads there
(`locate_put`).

A path that leads somewhere leads to the place that its components name one after the other
(`place_of_locate`); the tree only decides whether it does.
-/
import CommentMarkup.FileTree
import CommentMarkup.Proofs.Path.Parts

namespace CommentMarkup.FileTree

/-! ### The way of a path -/

/-- Goes on from a place by one component, whatever is there. -/
def onward (place : Place) (name : Text) : Place :=
  if name = Path.above then place.dropLast else place ++ [name]

/-- The place from which a path is read. -/
def origin (cwd p : Path) : Place := if Path.isAbsolute p then [] else Path.components cwd

/-- A place that a path goes through or leads to: the one of its first components. -/
def Through (cwd p : Path) (place : Place) : Prop :=
  ∃ upper, upper <+: Path.components p ∧ place = upper.foldl onward (origin cwd p)

/-- A tree that has directories where another one has nothing, at some of the given places, and
is the same everywhere else. -/
def Grows (t t' : FileTree) (new : Place → Prop) : Prop :=
  ∀ place, t'.find? place = t.find? place ∨
    (t.find? place = none ∧ t'.find? place = some .directory ∧ new place)

variable {t t' t'' : FileTree} {cwd p : Path} {place other here next : Place} {name : Text}
  {new new' : Place → Prop} {content : Bytes}

lemma Grows.refl (t : FileTree) (new : Place → Prop) : t.Grows t new := fun _ => Or.inl rfl

lemma Grows.trans (h : t.Grows t' new) (h' : t'.Grows t'' new) : t.Grows t'' new := by
  intro place
  rcases h' place with hsame' | ⟨hnone', hnew⟩
  · rw [hsame']
    exact h place
  · rcases h place with hsame | ⟨-, hdirectory, -⟩
    · exact Or.inr ⟨hsame ▸ hnone', hnew⟩
    · -- there is a directory already
      rw [hdirectory] at hnone'
      simp at hnone'

lemma Grows.mono (h : t.Grows t' new) (hsub : ∀ place, new place → new' place) :
    t.Grows t' new' := by
  intro place
  rcases h place with hsame | ⟨hnone, hdirectory, hnew⟩
  · exact Or.inl hsame
  · exact Or.inr ⟨hnone, hdirectory, hsub place hnew⟩

/-- A change that adds directories, whatever its outcome is. -/
lemma Grows.of_change {c : Change} {outcome : Except IoFault Unit} (h : t.Grows (c t).2 new)
    (hc : c t = (outcome, t')) : t.Grows t' new := by
  rwa [hc] at h

lemma lookup_filter_ne {entries : List (Place × Entry)} (h : other ≠ place) :
    (entries.filter fun x => decide (x.1 ≠ place)).lookup other = entries.lookup other := by
  induction entries with
  | nil => rfl
  | cons x rest ih =>
    obtain ⟨here, e⟩ := x
    by_cases hhere : here = place
    · subst hhere
      rw [List.filter_cons_of_neg (by simp), ih, List.lookup_cons, beq_eq_false_iff_ne.2 h]
    · rw [List.filter_cons_of_pos (by simpa using hhere), List.lookup_cons, List.lookup_cons, ih]

lemma find?_put (hplace : place ≠ []) (e : Entry) (other : Place) :
    (t.put place e).find? other = if other = place then some e else t.find? other := by
  by_cases hother : other = place
  · simp [find?, put, hother, hplace]
  · simp only [find?, put, List.lookup_cons, beq_eq_false_iff_ne.2 hother, if_neg hother]
    rw [lookup_filter_ne hother]

/-- There is always a directory at the root. -/
lemma ne_nil_of_not_directory (h : t.find? place ≠ some .directory) : place ≠ [] := by
  rintro rfl
  exact h rfl

/-! ### Leading somewhere -/

/-- A step leads on from a directory. -/
lemma step_eq_ok (h : t.step here name = .ok next) :
    t.find? here = some .directory ∧ next = onward here name := by
  unfold step at h
  split at h
  · simp at h
  · simp at h
  · next hdirectory =>
    refine ⟨hdirectory, ?_⟩
    unfold onward
    split at h
    · next habove => rw [if_pos habove, ← Except.ok.inj h]
    · next habove =>
      split at h
      · simp at h
      · rw [if_neg habove, ← Except.ok.inj h]

lemma foldlM_step_cons {names : List Text} (h : (name :: names).foldlM t.step here = .ok place) :
    ∃ next, t.step here name = .ok next ∧ names.foldlM t.step next = .ok place := by
  rw [List.foldlM_cons] at h
  cases hnext : t.step here name with
  | error kind =>
    rw [hnext] at h
    exact absurd h (by simp [bind, Except.bind])
  | ok next =>
    rw [hnext] at h
    exact ⟨next, rfl, h⟩

lemma place_of_foldlM {names : List Text} (h : names.foldlM t.step here = .ok place) :
    place = names.foldl onward here := by
  induction names generalizing here with
  | nil => exact (Except.ok.inj h).symm
  | cons name names ih =>
    obtain ⟨next, hnext, hrest⟩ := foldlM_step_cons h
    rw [List.foldl_cons, ← (step_eq_ok hnext).2]
    exact ih hrest

/-- A path leads to the place that its components name. -/
lemma place_of_locate (h : t.locate cwd p = .ok place) :
    place = (Path.components p).foldl onward (origin cwd p) := by
  unfold locate at h
  split at h
  · simp at h
  · exact place_of_foldlM h

lemma through_of_locate (h : t.locate cwd p = .ok place) : Through cwd p place :=
  ⟨Path.components p, List.prefix_rfl, place_of_locate h⟩

/-- A path leads where it did after something has been put at a place that is no directory. -/
lemma locate_put (hplace : t.find? place ≠ some .directory) (e : Entry)
    (h : t.locate cwd p = .ok other) : (t.put place e).locate cwd p = .ok other := by
  have hne := ne_nil_of_not_directory hplace
  have hwalk : ∀ (names : List Text) start, names.foldlM t.step start = .ok other →
      names.foldlM (t.put place e).step start = .ok other := by
    intro names
    induction names with
    | nil => exact fun _ h => h
    | cons name names ih =>
      intro start h
      obtain ⟨next, hnext, hrest⟩ := foldlM_step_cons h
      have hstart : start ≠ place := by
        rintro rfl
        exact hplace (step_eq_ok hnext).1
      have hsame : (t.put place e).step start name = t.step start name := by
        simp only [step, find?_put hne, if_neg hstart]
      rw [List.foldlM_cons, hsame, hnext]
      exact ih next hrest
  unfold locate at h ⊢
  split at h
  · simp at h
  · next hlong =>
    rw [if_neg hlong]
    exact hwalk _ _ h

/-! ### Writing -/

/-- A file is written where its path leads, unless there is a directory. -/
lemma write_eq_ok (h : write cwd p content t = (.ok (), t')) :
    ∃ place, t.locate cwd p = .ok place ∧ t.find? place ≠ some .directory ∧
      t' = t.put place (.file content) := by
  unfold write at h
  split at h
  · simp at h
  · next place hplace =>
    split at h
    · simp at h
    · next hentry => exact ⟨place, hplace, hentry, (Prod.mk.inj h).2.symm⟩

/-! ### Making directories -/

lemma makeDirectory_grows (cwd p : Path) (t : FileTree) :
    t.Grows (makeDirectory cwd p t).2 (Through cwd p) := by
  unfold makeDirectory
  split
  · exact .refl t _
  · next place hplace =>
    split
    · exact .refl t _
    · next hnone =>
      have hfree : t.find? place ≠ some .directory := by simp [hnone]
      have hne := ne_nil_of_not_directory hfree
      intro other
      rw [find?_put hne]
      by_cases hother : other = place
      · rw [if_pos hother, hother]
        exact Or.inr ⟨hnone, rfl, through_of_locate hplace⟩
      · rw [if_neg hother]
        exact Or.inl rfl

lemma ensureDirectory_tree (cwd p : Path) (t : FileTree) :
    (ensureDirectory cwd p t).2 = (makeDirectory cwd p t).2 := by
  unfold ensureDirectory
  split
  · next h => rw [h]
  · next h =>
    rw [h]
    split
    · rfl
    · split <;> rfl

lemma ensureDirectory_grows (cwd p : Path) (t : FileTree) :
    t.Grows (ensureDirectory cwd p t).2 (Through cwd p) := by
  rw [ensureDirectory_tree]
  exact makeDirectory_grows cwd p t

/-- A path of fewer components goes through nothing else. -/
lemma through_of_upper {a : Path.Anchor} {cs : List Text} {upper : List Text}
    (hcs : Path.AreParts (upper ++ cs)) (h : Through cwd (Path.ofComponents a upper) place) :
    Through cwd (Path.ofComponents a (upper ++ cs)) place := by
  have hupper : Path.AreParts upper := fun c hc => hcs c (List.mem_append_left _ hc)
  obtain ⟨first, hfirst, rfl⟩ := h
  rw [Path.components_ofComponents hupper] at hfirst
  have horigin : origin cwd (Path.ofComponents a upper)
      = origin cwd (Path.ofComponents a (upper ++ cs)) := by
    simp only [origin, Path.isAbsolute_ofComponents_iff hupper.ne_nil_and_not_mem,
      Path.isAbsolute_ofComponents_iff hcs.ne_nil_and_not_mem]
  refine ⟨first, ?_, by rw [horigin]⟩
  rw [Path.components_ofComponents hcs]
  exact hfirst.trans (List.prefix_append _ _)

lemma ensureDirectories_grows (cwd : Path) (a : Path.Anchor) {reversed : List Text}
    (h : Path.AreParts reversed.reverse) (t : FileTree) :
    t.Grows (ensureDirectories cwd a reversed t).2
      (Through cwd (Path.ofComponents a reversed.reverse)) := by
  induction reversed generalizing t with
  | nil => exact ensureDirectory_grows _ _ _
  | cons name upper ih =>
    have hlast := ensureDirectory_grows cwd (Path.ofComponents a (name :: upper).reverse) t
    simp only [ensureDirectories]
    split
    · next fault t₁ hmade =>
      rw [hmade] at hlast
      split
      · -- something above is missing
        have hsplit : (name :: upper).reverse = upper.reverse ++ [name] := List.reverse_cons
        have hupper : t₁.Grows (ensureDirectories cwd a upper t₁).2
            (Through cwd (Path.ofComponents a (name :: upper).reverse)) := by
          rw [hsplit] at h ⊢
          exact (ih (fun c hc => h c (List.mem_append_left _ hc)) t₁).mono
            fun _ hplace => through_of_upper h hplace
        have hboth := hlast.trans hupper
        split
        · next t₂ hdone =>
          rw [hdone] at hboth
          exact hboth.trans (ensureDirectory_grows _ _ _)
        · exact hboth
      · exact hlast
    · exact hlast

/-- Making a directory only adds directories, at places that its path goes through. -/
theorem makeDirectories_grows (cwd p : Path) (t : FileTree) :
    t.Grows (makeDirectories cwd p t).2 (Through cwd p) := by
  have hparts : Path.AreParts (Path.components p).reverse.reverse := by
    rw [List.reverse_reverse]
    exact Path.areParts_components p
  have hgrows := ensureDirectories_grows cwd (Path.anchor p) hparts t
  rw [List.reverse_reverse] at hgrows
  -- the path is put together again in its tidy form
  refine hgrows.mono fun place hplace => ?_
  obtain ⟨upper, hupper, rfl⟩ := hplace
  have htidy : Path.components (Path.ofComponents (Path.anchor p) (Path.components p))
      = Path.components p := Path.components_tidy p
  have horigin : origin cwd (Path.ofComponents (Path.anchor p) (Path.components p))
      = origin cwd p := by
    have habsolute := Path.isAbsolute_tidy p
    rw [Path.tidy] at habsolute
    rw [origin, origin, habsolute]
  exact ⟨upper, htidy ▸ hupper, by rw [horigin]⟩

/-! ### Ways that go on -/

lemma through_of_parent (h : Through cwd (Path.parent p) place) : Through cwd p place := by
  obtain ⟨upper, hupper, rfl⟩ := h
  rw [Path.components_parent] at hupper
  refine ⟨upper, hupper.trans (List.dropLast_prefix _), ?_⟩
  rw [origin, origin, Path.isAbsolute_parent]

/-- A path that is read from a base directory goes through it. -/
lemma through_within {base : Path} (hbase : base ≠ []) (hp : Path.isAbsolute p = false)
    (h : Through cwd base place) : Through cwd (Path.within base p) place := by
  obtain ⟨upper, hupper, rfl⟩ := h
  refine ⟨upper, ?_, ?_⟩
  · rw [Path.components_within hp]
    exact hupper.trans (List.prefix_append _ _)
  · rw [origin, origin, Path.isAbsolute_within hbase hp]

/-! ### Files with directories on the way to them -/

/-- A file stands where a path leads.  Directories may have been made on the way to it; everything
else is as it was. -/
structure Written (cwd p : Path) (content : Bytes) (t t' : FileTree) (place : Place) : Prop where
  /-- The path leads to the place. -/
  leads : t'.locate cwd p = .ok place
  /-- The file is there. -/
  holds : t'.find? place = some (.file content)
  /-- There is nothing else but some new directories. -/
  others : ∀ other, other ≠ place → t'.find? other = t.find? other ∨
    (t.find? other = none ∧ t'.find? other = some .directory ∧ Through cwd p other)

/-- A file that is written after the directories on the way have been made. -/
lemma written_of_write (hmade : makeDirectories cwd (Path.parent p) t = (.ok (), t'))
    (hwrite : write cwd p content t' = (.ok (), t'')) :
    ∃ place, Written cwd p content t t'' place := by
  have hgrows := (makeDirectories_grows cwd (Path.parent p) t).of_change hmade
  obtain ⟨place, hplace, hfree, rfl⟩ := write_eq_ok hwrite
  have hne := ne_nil_of_not_directory hfree
  refine ⟨place, locate_put hfree _ hplace, by rw [find?_put hne, if_pos rfl], ?_⟩
  intro other hother
  rw [find?_put hne, if_neg hother]
  rcases hgrows other with hsame | ⟨hnone, hdirectory, hthrough⟩
  · exact Or.inl hsame
  · exact Or.inr ⟨hnone, hdirectory, through_of_parent hthrough⟩

/-- A file that has been written can be written again. -/
lemma Written.write_eq {again : Bytes} (h : Written cwd p content t t' place) :
    write cwd p again t' = (.ok (), t'.put place (.file again)) := by
  rw [write, h.leads]
  simp [h.holds]

lemma Written.put {again : Bytes} (h : Written cwd p content t t' place) :
    Written cwd p again t (t'.put place (.file again)) place := by
  have hfree : t'.find? place ≠ some .directory := by
    rw [h.holds]
    simp
  have hne := ne_nil_of_not_directory hfree
  refine ⟨locate_put hfree _ h.leads, by rw [find?_put hne, if_pos rfl], fun other hother => ?_⟩
  rw [find?_put hne, if_neg hother]
  exact h.others other hother

/-- A file that is emptied and then written, after the directories on the way have been made. -/
lemma written_of_writes {emptied : FileTree}
    (hmade : makeDirectories cwd (Path.parent p) t = (.ok (), t'))
    (hempty : write cwd p [] t' = (.ok (), emptied))
    (hwrite : write cwd p content emptied = (.ok (), t'')) :
    ∃ place, Written cwd p content t t'' place := by
  obtain ⟨place, hemptied⟩ := written_of_write hmade hempty
  rw [hemptied.write_eq] at hwrite
  exact ⟨place, (Prod.mk.inj hwrite).2 ▸ hemptied.put⟩

end CommentMarkup.FileTree
