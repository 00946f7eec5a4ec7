/-
# The current directory

The current directory is what a relative path is read from.  A document whose file, root
directory and documents further up are given by absolute paths never comes back to it: the
paths that a spec may stand for are absolute, whatever the spec and the settings are made of,
so the templates that are opened are such documents again.  The current directory then has no
influence on a compilation (`document_of_isAbsolute`).
-/
import CommentMarkup.Proofs.Lockstep

namespace CommentMarkup

/-- A document that names no file relative to the current directory. -/
structure Document.IsAbsolute (d : Document) : Prop where
  /-- Its file is absolute. -/
  file : Path.isAbsolute d.file = true
  /-- So is the root directory. -/
  rootDir : Path.isAbsolute d.rootDir = true
  /-- So are the files of the documents further up. -/
  parents : ∀ p ∈ d.parents, Path.isAbsolute p = true

namespace Document.IsAbsolute

variable {d : Document} {p : Path}

lemma of_mem_chain (hd : d.IsAbsolute) (hp : p ∈ d.chain) : Path.isAbsolute p = true := by
  rw [chain] at hp
  split at hp
  · exact hd.parents p hp
  · rcases List.mem_append.1 hp with hp | hp
    · exact hd.parents p hp
    · exact List.mem_singleton.1 hp ▸ hd.file

lemma ancestors_eq (hd : d.IsAbsolute) (cwd : Path) :
    d.ancestors cwd = d.chain.map Path.normalize :=
  List.map_congr_left fun _ hp => Path.absolute_of_isAbsolute (hd.of_mem_chain hp)

lemma of_mem_ancestors (hd : d.IsAbsolute) {cwd : Path} (hp : p ∈ d.ancestors cwd) :
    Path.isAbsolute p = true := by
  rw [hd.ancestors_eq] at hp
  obtain ⟨q, hq, rfl⟩ := List.mem_map.1 hp
  exact (Path.isNormal_normalize (hd.of_mem_chain hq)).1

lemma relative_congr (hd : d.IsAbsolute) (hp : Path.isAbsolute p = true) (cwd cwd' : Path) :
    d.relative cwd' p = d.relative cwd p := by
  have hroot : d.rootDir ≠ [] := by
    intro hnil
    have habs := hd.rootDir
    simp [hnil, Path.isAbsolute] at habs
  simp only [relative, hroot, if_false, Path.relativeTo, Path.absolute_of_isAbsolute hd.rootDir,
    Path.absolute_of_isAbsolute hp]

/-- Every spec is read from an absolute directory. -/
lemma exists_target (hd : d.IsAbsolute) (spec : Text) :
    ∃ p, Path.isAbsolute p = true ∧ ∀ cwd, Include.target cwd d spec = Path.normalize p := by
  have hbase : Path.isAbsolute d.baseDir = true := Path.isAbsolute_directory hd.file
  unfold Include.target
  split
  · next rest =>
    have habs := Path.isAbsolute_join hd.rootDir rest
    exact ⟨_, habs, fun _ => Path.absolute_of_isAbsolute habs⟩
  · have habs := Path.isAbsolute_join hbase spec
    exact ⟨_, habs, fun _ => Path.absolute_of_isAbsolute habs⟩

lemma candidates_congr (hd : d.IsAbsolute) (s : Settings) (spec : Text) (cwd cwd' : Path) :
    Include.candidates s cwd' d spec = Include.candidates s cwd d spec := by
  obtain ⟨q, -, htarget⟩ := hd.exists_target spec
  simp only [Include.candidates, htarget]

lemma of_mem_candidates (hd : d.IsAbsolute) {s : Settings} {cwd : Path} {spec : Text}
    (hp : p ∈ Include.candidates s cwd d spec) : Path.isAbsolute p = true := by
  obtain ⟨q, hq, htarget⟩ := hd.exists_target spec
  have habs : Path.isAbsolute (Include.target cwd d spec) = true :=
    htarget cwd ▸ (Path.isNormal_normalize hq).1
  exact Settings.isAbsolute_of_mem_candidatePaths habs hp

variable {ctx : Context}

lemma of_resolve (hd : d.IsAbsolute) {spec : Text}
    (h : (Include.resolve ctx d spec).outcome = .ok p) : Path.isAbsolute p = true := by
  obtain ⟨_, hstop, -⟩ := Include.resolve_eq_ok_iff.1 h
  exact hd.of_mem_candidates hstop.mem

/-- A spec is resolved in the same way in every current directory. -/
lemma resolve_movedTo (hd : d.IsAbsolute) (cwd : Path) (spec : Text) :
    Include.resolve (ctx.movedTo cwd) d spec = Include.resolve ctx d spec := by
  have hcandidates := hd.candidates_congr ctx.settings spec ctx.cwd cwd
  have hancestors : d.ancestors cwd = d.ancestors ctx.cwd := by
    rw [hd.ancestors_eq, hd.ancestors_eq]
  rw [Include.resolve, Include.resolve, hcandidates]
  refine Run.bind_congr fun found hfound => ?_
  cases found with
  | none => rfl
  | some path =>
    obtain ⟨_, hstop⟩ := Include.stopsAt_of_firstExisting hfound
    have hpath := hd.of_mem_candidates hstop.mem
    simp only [hancestors, hd.relative_congr hd.file ctx.cwd cwd,
      hd.relative_congr hpath ctx.cwd cwd]

/-- What an absolute document opens is an absolute document. -/
lemma child (hd : d.IsAbsolute) {text : Text} (hp : Path.isAbsolute p = true) :
    (Compile.child ctx d p text).IsAbsolute where
  file := hp
  rootDir := hd.rootDir
  parents _ := hd.of_mem_ancestors

lemma child_movedTo (hd : d.IsAbsolute) (cwd : Path) (text : Text) :
    Compile.child (ctx.movedTo cwd) d p text = Compile.child ctx d p text := by
  rw [Compile.child, Compile.child, hd.ancestors_eq, hd.ancestors_eq]

end Document.IsAbsolute

namespace Compile

/-- Compilations of one absolute document in two current directories. -/
def DocumentPairing.ofAbsolute (ctx : Context) (cwd : Path) : DocumentPairing ctx cwd where
  documents d d' := d' = d ∧ d.IsAbsolute
  spared _ := False
  text_eq hd := hd.1 ▸ rfl
  file_eq hd := hd.1 ▸ rfl
  resolve {d d'} hd spec := by
    obtain ⟨rfl, habs⟩ := hd
    rw [habs.resolve_movedTo cwd]
    exact .refl _ _
  relative {d d' spec path} hd hpath := by
    obtain ⟨rfl, habs⟩ := hd
    exact habs.relative_congr (habs.of_resolve hpath) _ _
  child {d d' spec text path bytes} hd hpath _ _ := by
    obtain ⟨rfl, habs⟩ := hd
    exact ⟨habs.child_movedTo cwd text, habs.child (habs.of_resolve hpath)⟩
  spared_leaving hf _ := hf

/-- An absolute document is compiled in the same way in every current directory: it leaves the
same text or fails alike, makes the same events and has the same variables at its end. -/
theorem document_of_isAbsolute (ctx : Context) (cwd : Path) (d : Document) (hd : d.IsAbsolute)
    (scope : Scope) : document (ctx.movedTo cwd) d scope = document ctx d scope := by
  rcases (DocumentPairing.ofAbsolute ctx cwd).within_eq_or_spared (depthBound ctx.store + 1)
    ⟨rfl, hd⟩ scope with hsame | ⟨f, -, hspared⟩
  · exact hsame.symm
  · exact absurd hspared id

/-- A template that is included by way of the directory above and includes its includer again.
The diagnostic shows both as they are written from the root directory, wherever this is run. -/
theorem document_of_isAbsolute_of_include :
    let m : MemoryStore :=
      ⟨[("/site/a.kit".toList, []),
        ("/site/sub/b.kit".toList, Encoding.utf8Bytes "\n<!--@include ../a-->".toList)], []⟩
    let ctx : Context := ⟨m.toStore, {}, "/site".toList, Codec.builtIn⟩
    let d : Document :=
      { text := "<!--@include /sub/../sub//b-->".toList, file := "/site/a.kit".toList
        rootDir := "/site".toList, parents := ["/site/../top.kit".toList] }
    let report : Report :=
      { problem := .recursiveInclude "sub/b.kit".toList "a.kit".toList
        file := some "/site/sub/b.kit".toList, line := some 2, column := some 1, trace := [] }
    let failure : Failure := .diagnosed (.wrapping
      { report with trace := [⟨"/site/a.kit".toList, 1, 1⟩] } (.root report none))
    d.IsAbsolute ∧ (document ctx d .empty).outcome = .error failure ∧
      (document (ctx.movedTo "/elsewhere".toList) d .empty).outcome = .error failure := by
  intro m ctx d report failure
  have hd : d.IsAbsolute := ⟨by decide, by decide, by decide⟩
  have hfails : (document ctx d .empty).outcome = .error failure := by decide +kernel
  refine ⟨hd, hfails, ?_⟩
  rw [document_of_isAbsolute ctx "/elsewhere".toList d hd .empty, hfails]

end Compile

end CommentMarkup
