/-
# Normal absolute paths

A normal absolute path is an anchor followed by proper components: components that are not
empty, hold no separator, and stand neither for the directory itself nor for the one above.
This file shows that making a path normal leads to such a path (`isNormal_normalize`), that
nothing is left to do for it (`absolute_of_isNormal`), and how such a path is taken apart and
put together by its last component.  The last part is about candidates of an include: a bare
name put behind the directory of a normal path gives a normal path if it has an extension
(`isNormal_join_of_extension`), even if the name is made of dots or the directory is a root.
-/
import CommentMarkup.Path.Normal
import Mathlib.Data.List.DropRight
import Mathlib.Tactic.Lemma

namespace CommentMarkup.Path

/-- A component that names something inside its directory. -/
structure IsProper (c : Text) : Prop where
  /-- It is not empty. -/
  ne_nil : c ≠ []
  /-- It does not stand for the directory itself. -/
  ne_here : c ≠ here
  /-- It does not stand for the directory above. -/
  ne_above : c ≠ above
  /-- It holds no separator. -/
  not_mem : '/' ∉ c

/-- An absolute path that is its own normal form. -/
def IsNormal (p : Path) : Prop := isAbsolute p = true ∧ normalize p = p

/-! ### Anchors and components -/

lemma anchor_ne_relative_iff {p : Path} : anchor p ≠ .relative ↔ isAbsolute p = true := by
  unfold anchor isAbsolute
  split <;> simp_all
  next h =>
    cases p with
    | nil => simp
    | cons c r => simpa using fun hc => h r (by rw [hc])

lemma not_mem_of_mem_splitOn {sep : Char} {c p : Text} (h : c ∈ p.splitOn sep) : sep ∉ c := by
  induction p generalizing c with
  | nil =>
    have hc : c = [] := by simpa [List.splitOn_nil] using h
    simp [hc]
  | cons x r ih =>
    rw [List.splitOn_cons_eq_if_modifyHead] at h
    split at h
    · rcases List.mem_cons.1 h with rfl | h
      · simp
      · exact ih h
    · next hx =>
      obtain ⟨first, others, hr⟩ := List.exists_cons_of_ne_nil (List.splitOn_ne_nil sep r)
      rw [hr, List.modifyHead_cons] at h
      rcases List.mem_cons.1 h with rfl | h
      · have hfirst : sep ∉ first := ih (hr ▸ List.mem_cons_self)
        simp only [List.mem_cons, not_or]
        exact ⟨fun hc => hx (by simp [← hc]), hfirst⟩
      · exact ih (hr ▸ List.mem_cons_of_mem _ h)

lemma of_mem_components {c : Text} {p : Path} (h : c ∈ components p) :
    c ≠ [] ∧ c ≠ here ∧ '/' ∉ c := by
  simp only [components, List.mem_filter, Bool.and_eq_true, decide_eq_true_eq] at h
  exact ⟨h.2.1, h.2.2, not_mem_of_mem_splitOn h.1⟩

lemma components_separator_cons (p : Path) : components ('/' :: p) = components p := by
  simp [components, List.splitOn_cons_eq_if_modifyHead]

lemma components_anchor_append (a : Anchor) (p : Path) :
    components (a.text ++ p) = components p := by
  cases a <;> simp [Anchor.text, components_separator_cons]

lemma components_intercalate {cs : List Text} (hcs : ∀ c ∈ cs, '/' ∉ c) :
    components (List.intercalate ['/'] cs)
      = cs.filter fun c => decide (c ≠ []) && decide (c ≠ here) := by
  by_cases hnil : cs = []
  · subst hnil
    rfl
  · rw [components, List.splitOn_intercalate '/' hcs hnil]

lemma ne_nil_and_not_mem_of_proper {cs : List Text} (hcs : ∀ c ∈ cs, IsProper c) :
    ∀ c ∈ cs, c ≠ [] ∧ '/' ∉ c :=
  fun c hc => ⟨(hcs c hc).ne_nil, (hcs c hc).not_mem⟩

lemma filter_eq_self_of_proper {cs : List Text} (hcs : ∀ c ∈ cs, IsProper c) :
    (cs.filter fun c => decide (c ≠ []) && decide (c ≠ here)) = cs := by
  rw [List.filter_eq_self]
  intro c hc
  simp [(hcs c hc).ne_nil, (hcs c hc).ne_here]

/-- Joined components do not begin with a separator. -/
lemma head?_intercalate_ne {cs : List Text} (hcs : ∀ c ∈ cs, c ≠ [] ∧ '/' ∉ c) :
    (List.intercalate ['/'] cs).head? ≠ some '/' := by
  cases cs with
  | nil => simp
  | cons c rest =>
    obtain ⟨hne, hsep⟩ := hcs c List.mem_cons_self
    obtain ⟨x, r, rfl⟩ := List.exists_cons_of_ne_nil hne
    have hx : x ≠ '/' := fun h => hsep (h ▸ List.mem_cons_self)
    cases rest <;> simpa using hx

lemma anchor_append_intercalate {a : Anchor} (ha : a ≠ .relative) {cs : List Text}
    (hcs : ∀ c ∈ cs, c ≠ [] ∧ '/' ∉ c) : anchor (a.text ++ List.intercalate ['/'] cs) = a := by
  have hhead := head?_intercalate_ne hcs
  revert hhead
  generalize List.intercalate ['/'] cs = p
  intro hp
  cases a with
  | relative => exact absurd rfl ha
  | root =>
    cases p with
    | nil => rfl
    | cons c r =>
      have hc : c ≠ '/' := by simpa using hp
      simp [Anchor.text, anchor, hc]
  | doubleRoot =>
    cases p with
    | nil => rfl
    | cons c r =>
      have hc : c ≠ '/' := by simpa using hp
      simp [Anchor.text, anchor, hc]

lemma anchor_text_ne_nil {a : Anchor} (ha : a ≠ .relative) : a.text ≠ [] := by
  cases a with
  | relative => exact absurd rfl ha
  | root => simp [Anchor.text]
  | doubleRoot => simp [Anchor.text]

lemma ofComponents_eq {a : Anchor} (ha : a ≠ .relative) (cs : List Text) :
    ofComponents a cs = a.text ++ List.intercalate ['/'] cs := by
  simp [ofComponents, anchor_text_ne_nil ha]

/-! ### Going up is done with -/

/-- Going on from proper components leaves proper components. -/
lemma climb_proper {reversed : List Text} (hr : ∀ c ∈ reversed, IsProper c) {c : Text}
    (hc : c ≠ [] ∧ c ≠ here ∧ '/' ∉ c) : ∀ x ∈ climb true reversed c, IsProper x := by
  simp only [climb]
  split
  · cases reversed with
    | nil => simp
    | cons last before =>
      have hlast : last ≠ above := (hr last List.mem_cons_self).ne_above
      simpa [hlast] using fun x hx => hr x (List.mem_cons_of_mem _ hx)
  · next habove =>
    intro x hx
    rcases List.mem_cons.1 hx with rfl | hx
    · exact ⟨hc.1, hc.2.1, habove, hc.2.2⟩
    · exact hr x hx

lemma foldl_climb_proper {cs : List Text} (hcs : ∀ c ∈ cs, c ≠ [] ∧ c ≠ here ∧ '/' ∉ c) :
    ∀ {reversed : List Text}, (∀ c ∈ reversed, IsProper c) →
      ∀ x ∈ cs.foldl (climb true) reversed, IsProper x := by
  induction cs with
  | nil => exact fun hr => hr
  | cons c rest ih =>
    intro reversed hr
    rw [List.foldl_cons]
    exact ih (fun x hx => hcs x (List.mem_cons_of_mem _ hx))
      (climb_proper hr (hcs c List.mem_cons_self))

lemma reduce_proper {cs : List Text} (hcs : ∀ c ∈ cs, c ≠ [] ∧ c ≠ here ∧ '/' ∉ c) :
    ∀ c ∈ reduce true cs, IsProper c := by
  intro c hc
  rw [reduce, List.mem_reverse] at hc
  exact foldl_climb_proper hcs (by simp) c hc

/-- Without a way up, everything stays. -/
lemma foldl_climb_of_not_mem {anchored : Bool} {cs : List Text} (h : above ∉ cs) :
    ∀ reversed, cs.foldl (climb anchored) reversed = cs.reverse ++ reversed := by
  induction cs with
  | nil => simp
  | cons c rest ih =>
    intro reversed
    rw [List.mem_cons, not_or] at h
    have hc : climb anchored reversed c = c :: reversed := if_neg (Ne.symm h.1)
    rw [List.foldl_cons, hc, ih h.2]
    simp

lemma reduce_of_not_mem {anchored : Bool} {cs : List Text} (h : above ∉ cs) :
    reduce anchored cs = cs := by
  simp [reduce, foldl_climb_of_not_mem h]

lemma above_not_mem_of_proper {cs : List Text} (hcs : ∀ c ∈ cs, IsProper c) : above ∉ cs :=
  fun h => (hcs above h).ne_above rfl

lemma reduce_of_proper {cs : List Text} (hcs : ∀ c ∈ cs, IsProper c) : reduce true cs = cs :=
  reduce_of_not_mem (above_not_mem_of_proper hcs)

/-! ### Normal paths -/

lemma isAbsolute_ofComponents {a : Anchor} (ha : a ≠ .relative) (cs : List Text) :
    isAbsolute (ofComponents a cs) = true := by
  rw [ofComponents_eq ha]
  cases a with
  | relative => exact absurd rfl ha
  | root => simp [isAbsolute, Anchor.text]
  | doubleRoot => simp [isAbsolute, Anchor.text]

/-- The normal form of an anchor followed by components, some of which may be `.`. -/
lemma normalize_ofComponents {a : Anchor} (ha : a ≠ .relative) {cs : List Text}
    (hcs : ∀ c ∈ cs, c ≠ [] ∧ '/' ∉ c) :
    normalize (ofComponents a cs)
      = ofComponents a
          (reduce true (cs.filter fun c => decide (c ≠ []) && decide (c ≠ here))) := by
  rw [normalize, ofComponents_eq ha cs, anchor_append_intercalate ha hcs,
    components_anchor_append, components_intercalate fun c hc => (hcs c hc).2, decide_eq_true ha]

lemma isNormal_ofComponents {a : Anchor} (ha : a ≠ .relative) {cs : List Text}
    (hcs : ∀ c ∈ cs, IsProper c) : IsNormal (ofComponents a cs) := by
  refine ⟨isAbsolute_ofComponents ha cs, ?_⟩
  rw [normalize_ofComponents ha (ne_nil_and_not_mem_of_proper hcs),
    filter_eq_self_of_proper hcs, reduce_of_proper hcs]

/-- The normal form of an absolute path is normal. -/
lemma isNormal_normalize {p : Path} (hp : isAbsolute p = true) : IsNormal (normalize p) := by
  have ha := anchor_ne_relative_iff.2 hp
  rw [normalize, decide_eq_true ha]
  exact isNormal_ofComponents ha (reduce_proper fun c hc => of_mem_components hc)

/-- A normal path is an anchor followed by proper components. -/
lemma IsNormal.exists_components {p : Path} (h : IsNormal p) :
    ∃ a cs, a ≠ Anchor.relative ∧ (∀ c ∈ cs, IsProper c) ∧ p = ofComponents a cs := by
  have ha := anchor_ne_relative_iff.2 h.1
  refine ⟨anchor p, reduce true (components p), ha,
    reduce_proper fun c hc => of_mem_components hc, ?_⟩
  have hp := h.2
  rw [normalize, decide_eq_true ha] at hp
  exact hp.symm

lemma exists_of_isAbsolute {p : Path} (h : isAbsolute p = true) : ∃ r, p = '/' :: r := by
  cases p with
  | nil => simp [isAbsolute] at h
  | cons c r => exact ⟨r, by rw [show c = '/' by simpa [isAbsolute] using h]⟩

lemma isAbsolute_join {base : Path} (hbase : isAbsolute base = true) (p : Path) :
    isAbsolute (join base p) = true := by
  obtain ⟨r, rfl⟩ := exists_of_isAbsolute hbase
  unfold join
  split
  · assumption
  · split <;> simp [isAbsolute]

lemma isAbsolute_of_prefix {p q : Path} (hp : isAbsolute p = true) (hq : q <+: p) (hne : q ≠ []) :
    isAbsolute q = true := by
  obtain ⟨c, r, rfl⟩ := List.exists_cons_of_ne_nil hne
  obtain ⟨t, rfl⟩ := hq
  simpa [isAbsolute] using hp

/-- The directory of an absolute path is absolute. -/
lemma isAbsolute_directory {p : Path} (hp : isAbsolute p = true) :
    isAbsolute (directory p) = true := by
  have hmem : '/' ∈ p := by
    rw [isAbsolute, decide_eq_true_eq] at hp
    exact List.mem_of_mem_head? hp
  have hupTo : isAbsolute (p.rdropWhile (· ≠ '/')) = true := by
    refine isAbsolute_of_prefix hp (List.rdropWhile_prefix _ p) fun hnil => ?_
    simpa using List.rdropWhile_eq_nil_iff.1 hnil '/' hmem
  have hdirectory : directory p = if (p.rdropWhile (· ≠ '/')).rdropWhile (· = '/') = [] then
      p.rdropWhile (· ≠ '/') else (p.rdropWhile (· ≠ '/')).rdropWhile (· = '/') := rfl
  rw [hdirectory]
  split
  · exact hupTo
  · next hne => exact isAbsolute_of_prefix hupTo (List.rdropWhile_prefix _ _) hne

lemma isNormal_absolute {cwd : Path} (hcwd : isAbsolute cwd = true) (p : Path) :
    IsNormal (absolute cwd p) :=
  isNormal_normalize (isAbsolute_join hcwd p)

lemma absolute_of_isAbsolute {cwd p : Path} (h : isAbsolute p = true) :
    absolute cwd p = normalize p := by
  simp [absolute, join, h]

lemma absolute_of_isNormal {cwd p : Path} (h : IsNormal p) : absolute cwd p = p := by
  rw [absolute_of_isAbsolute h.1, h.2]

/-- Making a path absolute and normal once is enough. -/
lemma absolute_absolute {cwd : Path} (hcwd : isAbsolute cwd = true) (p : Path) :
    absolute cwd (absolute cwd p) = absolute cwd p :=
  absolute_of_isNormal (isNormal_absolute hcwd p)

/-! ### The last component -/

lemma intercalate_concat {cs : List Text} (hcs : cs ≠ []) (c : Text) :
    List.intercalate ['/'] (cs ++ [c]) = List.intercalate ['/'] cs ++ '/' :: c := by
  induction cs with
  | nil => exact absurd rfl hcs
  | cons x rest ih =>
    cases rest with
    | nil => simp
    | cons y more =>
      have hmore := ih (by simp)
      simp only [List.cons_append] at hmore ⊢
      rw [List.intercalate_cons_cons, hmore, List.intercalate_cons_cons]
      simp

/-- Every path with an anchor ends in its last component, after a separator. -/
lemma exists_ofComponents_concat {a : Anchor} (ha : a ≠ .relative) (cs : List Text) (c : Text) :
    ∃ u, ofComponents a (cs ++ [c]) = u ++ '/' :: c := by
  rw [ofComponents_eq ha]
  by_cases hcs : cs = []
  · subst hcs
    cases a with
    | relative => exact absurd rfl ha
    | root => exact ⟨[], by simp [Anchor.text]⟩
    | doubleRoot => exact ⟨['/'], by simp [Anchor.text]⟩
  · exact ⟨a.text ++ List.intercalate ['/'] cs, by rw [intercalate_concat hcs]; simp⟩

/-- A text without a character is passed as a whole when that one is looked for from the end. -/
lemma ne_of_mem_reverse {x : Char} {w : Text} (h : x ∉ w) :
    ∀ c ∈ w.reverse, decide (c ≠ x) = true :=
  fun _ hc => decide_eq_true fun hx => h (hx ▸ List.mem_reverse.1 hc)

lemma fileName_append_separator {c : Text} (hc : '/' ∉ c) (u : Path) :
    fileName (u ++ '/' :: c) = c := by
  simp only [fileName, List.reverse_append, List.reverse_cons, List.append_assoc]
  rw [List.takeWhile_append_of_pos (ne_of_mem_reverse hc)]
  simp

lemma fileName_ofComponents {a : Anchor} (ha : a ≠ .relative) (cs : List Text) {c : Text}
    (hc : '/' ∉ c) : fileName (ofComponents a (cs ++ [c])) = c := by
  obtain ⟨u, hu⟩ := exists_ofComponents_concat ha cs c
  rw [hu, fileName_append_separator hc]

lemma not_mem_fileName (p : Path) : '/' ∉ fileName p := by
  intro h
  rw [fileName, List.mem_reverse] at h
  have := List.all_eq_true.1 (List.all_takeWhile (p := fun x => decide (x ≠ '/'))) '/' h
  simp at this

lemma directory_append_separator {c : Text} (hc : '/' ∉ c) (u : Path) :
    directory (u ++ '/' :: c)
      = if (u.reverse.dropWhile (· = '/')).reverse = [] then u ++ ['/']
        else (u.reverse.dropWhile (· = '/')).reverse := by
  have hupTo : ((u ++ '/' :: c).reverse.dropWhile (· ≠ '/')).reverse = u ++ ['/'] := by
    simp only [List.reverse_append, List.reverse_cons, List.append_assoc]
    rw [List.dropWhile_append_of_pos (ne_of_mem_reverse hc)]
    simp
  simp only [directory, hupTo]
  simp

/-- Joined components do not end with a separator. -/
lemma exists_intercalate_eq_concat {cs : List Text} (hnil : cs ≠ [])
    (hcs : ∀ c ∈ cs, c ≠ [] ∧ '/' ∉ c) :
    ∃ w x, x ≠ '/' ∧ List.intercalate ['/'] cs = w ++ [x] := by
  induction cs with
  | nil => exact absurd rfl hnil
  | cons c rest ih =>
    cases rest with
    | nil =>
      obtain ⟨hne, hsep⟩ := hcs c List.mem_cons_self
      refine ⟨c.dropLast, c.getLast hne, ?_, ?_⟩
      · exact fun h => hsep (h ▸ List.getLast_mem hne)
      · rw [List.intercalate_singleton, List.dropLast_concat_getLast]
    | cons y more =>
      obtain ⟨w, x, hx, hw⟩ := ih (by simp) fun z hz => hcs z (List.mem_cons_of_mem _ hz)
      refine ⟨c ++ '/' :: w, x, hx, ?_⟩
      rw [List.intercalate_cons_cons, hw]
      simp

lemma directory_ofComponents {a : Anchor} (ha : a ≠ .relative) {cs : List Text}
    (hcs : ∀ c ∈ cs, IsProper c) {c : Text} (hc : '/' ∉ c) :
    directory (ofComponents a (cs ++ [c])) = ofComponents a cs := by
  rw [ofComponents_eq ha, ofComponents_eq ha]
  by_cases hnil : cs = []
  · -- nothing but separators stands before the component
    subst hnil
    cases a with
    | relative => exact absurd rfl ha
    | root => simpa [Anchor.text] using directory_append_separator hc []
    | doubleRoot => simpa [Anchor.text] using directory_append_separator hc ['/']
  · obtain ⟨w, x, hx, hw⟩ :=
      exists_intercalate_eq_concat hnil (ne_nil_and_not_mem_of_proper hcs)
    have h := directory_append_separator hc (a.text ++ List.intercalate ['/'] cs)
    rw [hw] at h
    rw [intercalate_concat hnil, ← List.append_assoc, hw, h]
    simp [hx]

lemma directory_root {a : Anchor} (ha : a ≠ .relative) :
    directory (ofComponents a []) = ofComponents a [] := by
  cases a with
  | relative => exact absurd rfl ha
  | root => decide
  | doubleRoot => decide

lemma fileName_root {a : Anchor} (ha : a ≠ .relative) : fileName (ofComponents a []) = [] := by
  cases a with
  | relative => exact absurd rfl ha
  | root => decide
  | doubleRoot => decide

/-- A bare name that is put behind a directory becomes its last component. -/
lemma join_ofComponents {a : Anchor} (ha : a ≠ .relative) {cs : List Text}
    (hcs : ∀ c ∈ cs, IsProper c) {n : Text} (hn : '/' ∉ n) :
    join (ofComponents a cs) n = ofComponents a (cs ++ [n]) := by
  have habs : isAbsolute n = false := by
    cases n with
    | nil => rfl
    | cons c r =>
      have hc : c ≠ '/' := fun h => hn (h ▸ List.mem_cons_self)
      simp [isAbsolute, hc]
  rw [ofComponents_eq ha, ofComponents_eq ha]
  by_cases hnil : cs = []
  · subst hnil
    cases a with
    | relative => exact absurd rfl ha
    | root => simp [join, habs, Anchor.text]
    | doubleRoot => simp [join, habs, Anchor.text]
  · obtain ⟨w, x, hx, hw⟩ :=
      exists_intercalate_eq_concat hnil (ne_nil_and_not_mem_of_proper hcs)
    rw [intercalate_concat hnil, hw]
    simp [join, habs, hx]

/-- The last component of a normal path, behind its directory, is the path again. -/
lemma IsNormal.exists_directory_fileName {p : Path} (h : IsNormal p) :
    ∃ a cs, a ≠ Anchor.relative ∧ (∀ c ∈ cs, IsProper c) ∧ directory p = ofComponents a cs ∧
      join (directory p) (fileName p) = p := by
  obtain ⟨a, cs, ha, hcs, rfl⟩ := h.exists_components
  rcases List.eq_nil_or_concat cs with rfl | ⟨before, last, rfl⟩
  · refine ⟨a, [], ha, by simp, directory_root ha, ?_⟩
    rw [directory_root ha, fileName_root ha, join_ofComponents ha (by simp) (by simp),
      ofComponents_eq ha, ofComponents_eq ha]
    simp
  · rw [List.concat_eq_append] at hcs ⊢
    have hlast : '/' ∉ last := (hcs last (by simp)).not_mem
    have hbefore : ∀ c ∈ before, IsProper c := fun c hc => hcs c (by simp [hc])
    refine ⟨a, before, ha, hbefore, directory_ofComponents ha hbefore hlast, ?_⟩
    rw [directory_ofComponents ha hbefore hlast, fileName_ofComponents ha before hlast,
      join_ofComponents ha hbefore hlast]

/-- The directory itself, read from a normal path, is that path. -/
lemma IsNormal.normalize_join_here {p : Path} (h : IsNormal p) : normalize (join p here) = p := by
  obtain ⟨a, cs, ha, hcs, rfl⟩ := h.exists_components
  have hsep : ∀ c ∈ cs ++ [here], c ≠ [] ∧ '/' ∉ c := by
    intro c hc
    rcases List.mem_append.1 hc with hc | hc
    · exact ne_nil_and_not_mem_of_proper hcs c hc
    · rw [List.mem_singleton.1 hc]
      decide
  rw [join_ofComponents ha hcs (by decide), normalize_ofComponents ha hsep, List.filter_append,
    filter_eq_self_of_proper hcs]
  simp [reduce_of_proper hcs]

/-! ### Names with an extension -/

/-- A name with an extension is proper: a name of one or two dots has none. -/
lemma isProper_fileName {p : Path} (h : extension p ≠ []) : IsProper (fileName p) := by
  refine ⟨fun hn => h ?_, fun hn => h ?_, fun hn => h ?_, not_mem_fileName p⟩
  · simp only [extension, hn]
    rfl
  · simp only [extension, hn]
    rfl
  · simp only [extension, hn]
    rfl

/-- A bare name with an extension, put behind the directory of a normal path, gives a normal
path. -/
lemma isNormal_join_of_extension {p : Path} (hp : IsNormal p) {n : Text} (hn : '/' ∉ n)
    (h : extension (join (directory p) n) ≠ []) : IsNormal (join (directory p) n) := by
  obtain ⟨a, cs, ha, hcs, hdir, -⟩ := hp.exists_directory_fileName
  rw [hdir, join_ofComponents ha hcs hn] at h ⊢
  have hname := isProper_fileName h
  rw [fileName_ofComponents ha cs hn] at hname
  refine isNormal_ofComponents ha fun c hc => ?_
  rcases List.mem_append.1 hc with hc | hc
  · exact hcs c hc
  · exact List.mem_singleton.1 hc ▸ hname

end CommentMarkup.Path
