/-
# Includes read from the root directory

A spec that begins with a separator is read from the root directory of the site, so the files it may
stand for are the same in every document with this root.  They should lie inside the root, and if
no component of the spec leads up and one of them names something, they do: the target goes through
the root, and the candidates only have other names in the place of its last component.

This fails for a spec that begins with several separators.  One of them is taken away, and what is
left is an absolute path, which does not depend on the root.  Such a spec leads into the root only
if it repeats its path (`candidates_inside_root_iff`), and it may lead to any file of the store
otherwise (`include_leaves_root`).
-/
import CommentMarkup.Proofs.Path.Inside
import CommentMarkup.Proofs.Resolution
import CommentMarkup.Compile

namespace CommentMarkup

namespace Path

variable {c n : Text} {cwd root p s : Path}

/-! ### Another last component -/

/-- A name that holds a proper one is proper, unless it has a separator. -/
lemma IsProper.of_infix (hc : IsProper c) (hin : c <:+: n) (hn : '/' ∉ n) : IsProper n := by
  -- a part of one or two dots is itself made of at most two dots
  have hdots : ∀ k ≤ 2, n ≠ List.replicate k '.' := by
    rintro k hk rfl
    have hlength := hin.length_le
    have hall : c = List.replicate c.length '.' :=
      List.eq_replicate_of_mem fun x hx => List.eq_of_mem_replicate (hin.subset hx)
    rw [List.length_replicate] at hlength
    have hcases : c.length = 0 ∨ c.length = 1 ∨ c.length = 2 := by omega
    rcases hcases with h | h | h <;> rw [h] at hall
    · exact hc.ne_nil hall
    · exact hc.ne_here hall
    · exact hc.ne_above hall
  exact ⟨hdots 0 (by omega), hdots 1 (by omega), hdots 2 (by omega), hn⟩

/-- A normal path that names something has a proper last component, and any other name can be put
in its place. -/
lemma IsNormal.exists_last (h : IsNormal p) (hne : components p ≠ []) :
    ∃ before, IsProper (fileName p) ∧ components p = before ++ [fileName p] ∧
      (∀ c ∈ before, IsProper c) ∧
      ∀ n, '/' ∉ n → join (directory p) n = ofComponents (anchor p) (before ++ [n]) := by
  obtain ⟨a, cs, ha, hcs, rfl⟩ := h.exists_components
  rw [components_ofComponents (areParts_of_proper hcs)] at hne ⊢
  rw [anchor_ofComponents ha (areParts_of_proper hcs)]
  obtain ⟨before, last, rfl⟩ := List.eq_nil_or_concat' cs |>.resolve_left hne
  have hlast : IsProper last := hcs last (by simp)
  have hbefore : ∀ c ∈ before, IsProper c := fun c hc => hcs c (by simp [hc])
  rw [fileName_ofComponents ha before hlast.not_mem,
    directory_ofComponents ha hbefore hlast.not_mem]
  exact ⟨before, hlast, rfl, hbefore, fun n hn => join_ofComponents ha hbefore hn⟩

/-- With another last component, a path is inside of what it has been inside of. -/
lemma Inside.join_directory (h : Inside root p) (hp : IsNormal p) (hn : IsProper n) :
    IsNormal (join (directory p) n) ∧ Inside root (join (directory p) n) := by
  obtain ⟨rest, hrest, hgoes⟩ := h.goes_on
  obtain ⟨before, -, hlast, hbefore, hjoin⟩ := hp.exists_last (by simp [hgoes, hrest])
  have ha : anchor p ≠ .relative := anchor_ne_relative_iff.2 hp.1
  have hproper : ∀ c ∈ before ++ [n], IsProper c := by
    intro c hc
    rcases List.mem_append.1 hc with hc | hc
    · exact hbefore c hc
    · exact List.mem_singleton.1 hc ▸ hn
  rw [hjoin n hn.not_mem]
  refine ⟨isNormal_ofComponents ha hproper, ?_, rest.dropLast ++ [n], by simp, ?_⟩
  · rw [anchor_ofComponents ha (areParts_of_proper hproper), h.same_anchor]
  · -- the last component is one of those behind the directory
    have hbefore : before = components root ++ rest.dropLast := by
      rw [← List.dropLast_append_of_ne_nil hrest, ← hgoes, hlast, List.dropLast_concat]
    rw [components_ofComponents (areParts_of_proper hproper), hbefore, List.append_assoc]

/-! ### Behind the root -/

lemma normalize_tidy (hp : isAbsolute p = true) : normalize (tidy p) = normalize p := by
  rw [normalize, normalize, anchor_tidy hp, components_tidy]

/-- What is read from a root lies inside it, unless it is absolute and lies somewhere else. -/
lemma inside_join_iff (hroot : isAbsolute root = true) (hstay : above ∉ components s)
    (hne : components s ≠ []) :
    Inside (absolute cwd root) (absolute cwd (join root s)) ↔
      isAbsolute s = false ∨ Inside (absolute cwd root) (absolute cwd s) := by
  cases hs : isAbsolute s with
  | true => simp [join, hs]
  | false =>
    have hinner : IsInner s := by
      refine ⟨hs, ?_, ?_⟩ <;> rwa [reduce_of_not_mem hstay]
    have hjoin : isAbsolute (join root s) = true := isAbsolute_join hroot s
    have hnamed : root ≠ [] := by
      rintro rfl
      simp [isAbsolute] at hroot
    have hinside := hinner.inside hroot hnamed
    rw [within, absolute_of_isAbsolute ((isAbsolute_tidy _).trans hjoin), normalize_tidy hjoin,
      absolute_of_isAbsolute hroot] at hinside
    simpa [absolute_of_isAbsolute hjoin, absolute_of_isAbsolute hroot] using hinside

/-- What is read from an absolute path and names something is not that path's root. -/
lemma components_join_ne_nil (hroot : isAbsolute root = true) (hstay : above ∉ components s)
    (hne : components s ≠ []) : components (absolute cwd (join root s)) ≠ [] := by
  have hjoin : isAbsolute (join root s) = true := isAbsolute_join hroot s
  have hself : absolute (join root s) (join root s) = normalize (join root s) :=
    absolute_of_isAbsolute hjoin
  have hparts : components (normalize (join root s)) = reduce true (components (join root s)) := by
    rw [← hself, components_absolute hjoin, join, if_pos hjoin]
  rw [absolute_of_isAbsolute hjoin, hparts]
  cases hs : isAbsolute s with
  | true => rwa [join, if_pos hs, reduce_of_not_mem hstay]
  | false =>
    have hlater : above ∉ reduce false (components s) := by rwa [reduce_of_not_mem hstay]
    rw [components_join hs, reduce_append _ hlater, reduce_of_not_mem hstay]
    simp [hne]

end Path

namespace Settings

variable {s : Settings} {target root : Path}

/-- Every name that is tried for a bare name has that name in it. -/
lemma infix_of_mem_candidateNames {name n : Text} (hn : n ∈ s.candidateNames name) :
    name <:+: n := by
  have hvariants : ∀ base, ∀ x ∈ s.variants base, base <:+: x := by
    intro base x hx
    rcases List.mem_cons.1 hx with rfl | hx
    · exact List.infix_rfl
    · obtain ⟨e, -, rfl⟩ := List.mem_map.1 hx
      exact (List.prefix_append _ _).isInfix
  rcases List.mem_append.1 hn with hn | hn
  · exact hvariants _ n hn
  · exact (List.suffix_append _ _).isInfix.trans (hvariants _ n hn)

/-- The candidates of a target lie inside a directory if the target does, since it is one of them
and they are all next to it. -/
lemma inside_candidatePaths_iff (hmark : '/' ∉ s.partialMark)
    (hext : ∀ e ∈ s.templateExtensions, '/' ∉ e.text) (htarget : Path.IsNormal target)
    (hne : Path.components target ≠ []) :
    (∀ p ∈ s.candidatePaths target, Path.IsNormal p ∧ Path.Inside root p) ↔
      Path.Inside root target := by
  constructor
  · intro h
    obtain ⟨_, _, -, -, -, hself⟩ := htarget.exists_directory_fileName
    have hmem : target ∈ s.candidatePaths target :=
      List.mem_map.2 ⟨Path.fileName target, by simp [candidateNames, variants], hself⟩
    exact (h target hmem).2
  · intro h p hp
    obtain ⟨n, hn, rfl⟩ := List.mem_map.1 hp
    obtain ⟨before, hname, -, -, -⟩ := htarget.exists_last hne
    have hsep := not_mem_of_mem_candidateNames hmark hext (Path.not_mem_fileName target) hn
    exact h.join_directory htarget (hname.of_infix (infix_of_mem_candidateNames hn) hsep)

end Settings

namespace Include

/-- What a spec that begins with a separator stands for.

Let the root directory be absolute, and the partial mark and the template extensions without
separators.  A spec that begins with a separator, has no component that leads up and at least one
that names something stands for the same paths in every document with this root.  They are normal
paths strictly inside the root exactly if what follows the first separator is relative, or is the
path of something inside the root by itself. -/
theorem candidates_inside_root_iff (settings : Settings) (cwd root : Path) (s : Text)
    (hroot : Path.isAbsolute root = true) (hmark : '/' ∉ settings.partialMark)
    (hext : ∀ e ∈ settings.templateExtensions, '/' ∉ e.text)
    (hstay : Path.above ∉ Path.components ('/' :: s)) (hname : Path.components ('/' :: s) ≠ []) :
    ∃ paths, (∀ d : Document, d.rootDir = root → candidates settings cwd d ('/' :: s) = paths) ∧
      ((∀ p ∈ paths, Path.IsNormal p ∧ Path.Inside (Path.absolute cwd root) p) ↔
        Path.isAbsolute s = false ∨
          Path.Inside (Path.absolute cwd root) (Path.absolute cwd s)) := by
  rw [Path.components_separator_cons] at hstay hname
  have htarget : Path.IsNormal (Path.absolute cwd (Path.join root s)) := by
    rw [Path.absolute_of_isAbsolute (Path.isAbsolute_join hroot s)]
    exact Path.isNormal_normalize (Path.isAbsolute_join hroot s)
  refine ⟨settings.candidatePaths (Path.absolute cwd (Path.join root s)), ?_, ?_⟩
  · rintro d rfl
    rfl
  · rw [Settings.inside_candidatePaths_iff hmark hext htarget
      (Path.components_join_ne_nil hroot hstay hname), Path.inside_join_iff hroot hstay hname]

/-- A root and a spec that are not normal. -/
theorem candidates_inside_root_iff_of_way_around :
    let d : Document :=
      { text := [], file := "/site/pages/a.kit".toList, rootDir := "/site/../www//".toList
        parents := [] }
    ∀ p ∈ candidates {} "/site".toList d "/./parts//nav/".toList,
      Path.IsNormal p ∧ Path.Inside "/www".toList p := by
  intro d
  obtain ⟨paths, hsame, hinside⟩ := candidates_inside_root_iff {} "/site".toList
    "/site/../www//".toList "./parts//nav/".toList (by decide) (by decide) (by decide) (by decide)
    (by decide)
  have hpaths : candidates {} "/site".toList d "/./parts//nav/".toList = paths := hsame d rfl
  have hroot : Path.absolute "/site".toList "/site/../www//".toList = "/www".toList := by decide
  rw [hpaths, ← hroot]
  exact hinside.2 (Or.inl (by decide))

/-- A spec with a second separator, which leads out of the root. -/
theorem include_leaves_root :
    let settings : Settings := {}
    let m : MemoryStore := ⟨[("/etc/passwd".toList, Encoding.utf8Bytes "secret".toList)], []⟩
    let d : Document :=
      { text := "<!--@include //etc/passwd-->".toList, file := "/site/a.kit".toList
        rootDir := "/site".toList, parents := [] }
    let spec := "//etc/passwd".toList
    (Path.isAbsolute d.rootDir = true ∧ '/' ∉ settings.partialMark ∧
        (∀ e ∈ settings.templateExtensions, '/' ∉ e.text) ∧
        Path.above ∉ Path.components spec ∧ Path.components spec ≠ []) ∧
      "/etc/passwd".toList ∈ candidates settings "/site".toList d spec ∧
      ¬ Path.Inside (Path.absolute "/site".toList d.rootDir) "/etc/passwd".toList ∧
      (Compile.document ⟨m.toStore, settings, "/site".toList, Codec.builtIn⟩ d .empty).outcome
        = .ok "secret".toList := by
  intro settings m d spec
  refine ⟨⟨by decide, by decide, by decide, by decide, by decide⟩, by decide, ?_, by decide +kernel⟩
  rintro ⟨-, rest, -, hrest⟩
  have hroot : Path.components (Path.absolute "/site".toList d.rootDir) = ["site".toList] := by
    decide
  have hpath : Path.components "/etc/passwd".toList = ["etc".toList, "passwd".toList] := by decide
  rw [hroot, hpath] at hrest
  simp at hrest

end Include

end CommentMarkup
