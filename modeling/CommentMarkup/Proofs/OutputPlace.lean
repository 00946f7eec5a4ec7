/-
# Where a build writes

A run of a build changes at most one file, and this is the file at the normal absolute path of its
output (`output_of_build`).  The output is named by the argument for the source, with another
suffix, read from the output directory.  It lies inside that directory, whatever the directory is,
exactly if the name is inner; a run with such a name leaves every file outside of the directory as
it was.

Nothing keeps a name from leading out of the directory.  One that goes up and comes back to the
source makes a build overwrite what it has been made from (`output_of_build_overwrites_source`).
-/
import CommentMarkup.Proofs.KeptFiles
import CommentMarkup.Proofs.Path.Inside

namespace CommentMarkup.FileTree

open CommentMarkup.Path

variable {t : FileTree} {cwd p : Path} {place : Place} {reversed cs : List Text} {c : Text}

/-! ### Places and normal paths -/

/-- A step in the tree is a step of making a path normal, if no way up is left before it. -/
lemma onward_reverse (h : above ∉ reversed) :
    onward reversed.reverse c = (climb true reversed c).reverse ∧ above ∉ climb true reversed c := by
  unfold onward climb
  by_cases hc : c = above
  · rw [if_pos hc, if_pos hc]
    cases reversed with
    | nil => simp
    | cons last before =>
      rw [List.mem_cons, not_or] at h
      have hlast : last ≠ above := Ne.symm h.1
      simpa [hlast] using h.2
  · rw [if_neg hc, if_neg hc, List.reverse_cons, List.mem_cons, not_or]
    exact ⟨rfl, Ne.symm hc, h⟩

lemma foldl_onward (h : above ∉ reversed) :
    cs.foldl onward reversed.reverse = (cs.foldl (climb true) reversed).reverse := by
  induction cs generalizing reversed with
  | nil => rfl
  | cons c rest ih =>
    obtain ⟨hstep, hnext⟩ := onward_reverse (c := c) h
    rw [List.foldl_cons, List.foldl_cons, hstep]
    exact ih hnext

/-- A path that leads somewhere leads to the place that its normal absolute form names. -/
lemma place_eq_components_absolute (hcwd : IsNormal cwd) (h : t.locate cwd p = .ok place) :
    place = components (absolute cwd p) := by
  rw [place_of_locate h, components_absolute hcwd.1, reduce, origin]
  cases hp : isAbsolute p with
  | true =>
    rw [join, if_pos hp, if_pos rfl]
    exact foldl_onward (List.not_mem_nil)
  | false =>
    obtain ⟨a, cs, -, hcs, rfl⟩ := hcwd.exists_components
    have hproper := above_not_mem_of_proper hcs
    have hnot : above ∉ cs.reverse := fun hmem => hproper (List.mem_reverse.1 hmem)
    have hway : (components p).foldl onward cs.reverse.reverse
        = ((components p).foldl (climb true) cs.reverse).reverse := foldl_onward hnot
    rw [List.reverse_reverse] at hway
    rw [components_join hp, components_ofComponents (areParts_of_proper hcs), List.foldl_append,
      foldl_climb_of_not_mem hproper, List.append_nil, if_neg Bool.false_ne_true, hway]

end CommentMarkup.FileTree

namespace CommentMarkup.CommandLine

open Build Build.Step FileTree

variable {host : Host} {inputDir outputDir inputFile : Path} {choices : Choices}
  {arguments : List Text} {tree : FileTree}

/-! ### The file that a build changes -/

/-- A run of a build changes no file, or only the one that its output path leads to. -/
lemma sameFileAt_of_build (hprepares : host.PreparesOnly (Path.tidy outputDir))
    (hrequest : Request.ofArguments arguments = .build inputFile choices) :
    (∀ place, tree.SameFileAt (run host inputDir outputDir arguments tree).tree place) ∨
      ∃ file place, Path.withSuffix host.settings.outputSuffix inputFile = .ok file ∧
        (run host inputDir outputDir arguments tree).tree.locate host.cwd
          (Path.within (Path.tidy outputDir) file) = .ok place ∧
        ∀ other, other ≠ place →
          tree.SameFileAt (run host inputDir outputDir arguments tree).tree other := by
  rw [tree_of_build hrequest]
  rcases yields_or_fails (build host (jobOf inputDir outputDir inputFile choices) outputDir) tree with
    ⟨job, hyields⟩ | hfails
  · obtain ⟨_, start, hprepared, hrun⟩ := yields_bind.1 hyields
    have hgrows := hprepares.grows (yields_change.1 hprepared)
    obtain ⟨file, _, _, _, _, place, hfile, -, -, -, -, hwritten⟩ := run_yields hrun
    exact Or.inr ⟨file, place, hfile, hwritten.leads, fun other hother =>
      (hgrows.sameFileAt other).trans (hwritten.sameFileAt hother)⟩
  · rcases build_fails hprepares hfails with
      hsame | ⟨_, _, file, place, -, -, -, hfile, hwritten, hothers⟩
    · exact Or.inl hsame
    · exact Or.inr ⟨file, place, hfile, hwritten.leads, hothers⟩

/-- What a run of a build can change, whether it succeeds or not, if the preparation keeps to the
directory for the output.

If the source cannot be given the suffix of compiled documents, no file is changed.  Otherwise the
output is the source with that suffix, read from the output directory, and all files but the one at
the normal absolute path of the output are as they were.

The output lies inside the directory that it is read from, whatever the directory is, exactly if
the name is inner: if it is relative, and if something is left of it but no way up when it is made
normal.  Then every file outside of the output directory is as it was. -/
theorem output_of_build (host : Host) (inputDir outputDir inputFile : Path) (choices : Choices)
    (arguments : List Text) (tree : FileTree) (hcwd : Path.IsNormal host.cwd)
    (hprepares : host.PreparesOnly (Path.tidy outputDir))
    (hrequest : Request.ofArguments arguments = .build inputFile choices) :
    let directory := Path.absolute host.cwd (Path.tidy outputDir)
    let final := (run host inputDir outputDir arguments tree).tree
    (∀ fault, Path.withSuffix host.settings.outputSuffix inputFile = .error fault →
        ∀ place, tree.SameFileAt final place) ∧
      ∀ file, Path.withSuffix host.settings.outputSuffix inputFile = .ok file →
        let output := Path.absolute host.cwd (Path.within (Path.tidy outputDir) file)
        (∀ place, place ≠ Path.components output → tree.SameFileAt final place) ∧
          (Path.IsInner file ↔ ∀ cwd base, Path.isAbsolute cwd = true → base ≠ [] →
            Path.Inside (Path.absolute cwd base) (Path.absolute cwd (Path.within base file))) ∧
          (Path.IsInner file → Path.Inside directory output ∧
            ∀ place, (¬ ∃ rest, rest ≠ [] ∧ place = Path.components directory ++ rest) →
              tree.SameFileAt final place) := by
  intro directory final
  have hchange : (∀ place, tree.SameFileAt final place) ∨
      ∃ file place, Path.withSuffix host.settings.outputSuffix inputFile = .ok file ∧
        final.locate host.cwd (Path.within (Path.tidy outputDir) file) = .ok place ∧
        ∀ other, other ≠ place → tree.SameFileAt final other :=
    sameFileAt_of_build hprepares hrequest
  constructor
  · intro fault hfault
    rcases hchange with hsame | ⟨file, _, hfile, -, -⟩
    · exact hsame
    · rw [hfault] at hfile
      simp at hfile
  intro file hfile output
  have hothers : ∀ place, place ≠ Path.components output → tree.SameFileAt final place := by
    intro place hplace
    rcases hchange with hsame | ⟨file', place', hfile', hleads, hothers⟩
    · exact hsame place
    · obtain rfl : file = file' := Except.ok.inj (hfile.symm.trans hfile')
      rw [place_eq_components_absolute hcwd hleads] at hothers
      exact hothers place hplace
  refine ⟨hothers, Path.isInner_iff, fun hinner => ?_⟩
  have hinside : Path.Inside directory output :=
    hinner.inside hcwd.1 (Path.tidy_ne_nil outputDir)
  refine ⟨hinside, fun place hplace => hothers place ?_⟩
  rintro rfl
  exact hplace hinside.goes_on

/-- A name with a way around, through a directory that is not there. -/
theorem output_of_build_of_way_around :
    let host : Host := .standard {} "/w".toList
    let source : Place := ["w".toList, "in".toList, "b".toList, "a.html".toList]
    let tree : FileTree :=
      FileTree.empty.withFile source (Encoding.utf8Bytes "<!--$n=1-->n is <!--$n-->".toList)
    let r := run host "in".toList "out".toList
      ["--inputFile".toList, "sub/../b/a.html".toList] tree
    r.conclusion = .success ∧ tree.SameFileAt r.tree source ∧
      Path.Inside (Path.absolute "/w".toList (Path.tidy "out".toList))
        (Path.absolute "/w".toList
          (Path.within (Path.tidy "out".toList) "sub/../b/a.html".toList)) := by
  intro host source tree r
  have hcwd : Path.IsNormal host.cwd := ⟨by decide, by decide⟩
  have hrequest : Request.ofArguments ["--inputFile".toList, "sub/../b/a.html".toList]
      = .build "sub/../b/a.html".toList { inputFile := some "sub/../b/a.html".toList } := by
    decide +kernel
  have hfile : Path.withSuffix host.settings.outputSuffix "sub/../b/a.html".toList
      = .ok "sub/../b/a.html".toList := by decide +kernel
  have hinner : Path.IsInner "sub/../b/a.html".toList := ⟨by decide, by decide, by decide⟩
  have hdirectory : Path.components (Path.absolute host.cwd (Path.tidy "out".toList))
      = ["w".toList, "out".toList] := by decide
  obtain ⟨-, -, hkept⟩ := (output_of_build host "in".toList "out".toList _ _ _ tree hcwd
    (Host.preparesOnly_standard _ _ _) hrequest).2 _ hfile
  obtain ⟨hinside, hothers⟩ := hkept hinner
  refine ⟨by decide +kernel, hothers source ?_, hinside⟩
  rw [hdirectory]
  rintro ⟨rest, -, hrest⟩
  simp [source] at hrest

/-- A name that leads from the output directory to the source. -/
theorem output_of_build_overwrites_source :
    let host : Host := .standard {} "/w".toList
    let source : Place := ["w".toList, "in".toList, "a.html".toList]
    let tree : FileTree :=
      FileTree.empty.withFile source (Encoding.utf8Bytes "<!--$n=1-->n is <!--$n-->".toList)
    let r := run host "in".toList "out".toList ["--inputFile".toList, "../in/a.html".toList] tree
    r.conclusion = .success ∧ ¬ tree.SameFileAt r.tree source ∧
      r.tree.find? source = some (.file (Encoding.utf8Bytes "n is 1".toList)) ∧
      ¬ Path.Inside (Path.absolute "/w".toList (Path.tidy "out".toList))
        (Path.absolute "/w".toList (Path.within (Path.tidy "out".toList) "../in/a.html".toList)) := by
  intro host source tree r
  have hbefore : tree.find? source
      = some (.file (Encoding.utf8Bytes "<!--$n=1-->n is <!--$n-->".toList)) := by decide +kernel
  have hafter : r.tree.find? source = some (.file (Encoding.utf8Bytes "n is 1".toList)) := by
    decide +kernel
  refine ⟨by decide +kernel, fun hsame => ?_, hafter, ?_⟩
  · rw [(hsame _).2 hbefore] at hafter
    revert hafter
    decide +kernel
  · rintro ⟨-, rest, -, hrest⟩
    have hdirectory : Path.components (Path.absolute "/w".toList (Path.tidy "out".toList))
        = ["w".toList, "out".toList] := by decide
    have houtput : Path.components (Path.absolute "/w".toList
        (Path.within (Path.tidy "out".toList) "../in/a.html".toList))
          = ["w".toList, "in".toList, "a.html".toList] := by decide
    rw [hdirectory, houtput] at hrest
    simp at hrest

end CommentMarkup.CommandLine
