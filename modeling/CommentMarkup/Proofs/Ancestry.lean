/-
# Ancestors

The ancestors of a document are the normal paths of the documents being compiled further up
and of the document itself.  An include must not open one of them again.

The check compares the path that was found with the ancestors as it is written, so it is
exactly as good as the settings make it: all documents that are opened on the way have
distinct ancestors if and only if candidates that are templates are normal paths, and no spec
resolves to a spelling of an ancestor if and only if all candidates are
(`ancestors_nodup_iff`).  A partial mark such as `./` breaks both
(`recursive_include_of_here_mark`).
-/
import CommentMarkup.Proofs.Nesting
import Mathlib.Tactic.ByContra

namespace CommentMarkup.Compile

variable {d : Document} {path : Path} {text : Text}

/-- The ancestors of an included document are those of the including one and its own path. -/
lemma ancestors_child (ctx : Context) (hcwd : Path.isAbsolute ctx.cwd = true) (hpath : path ≠ []) :
    (child ctx d path text).ancestors ctx.cwd
      = d.ancestors ctx.cwd ++ [Path.absolute ctx.cwd path] := by
  have hagain : (d.ancestors ctx.cwd).map (Path.absolute ctx.cwd) = d.ancestors ctx.cwd := by
    rw [Document.ancestors, List.map_map]
    exact List.map_congr_left fun p _ => Path.absolute_absolute hcwd p
  have hchain : (child ctx d path text).chain = d.ancestors ctx.cwd ++ [path] := by
    simp [Document.chain, child, hpath]
  rw [Document.ancestors, hchain, List.map_append, hagain, List.map_singleton]

variable {ctx : Context}

/-- What is opened under settings with normal templates is no ancestor, and becomes one. -/
lemma Opens.exists_ancestor (hcwd : Path.isAbsolute ctx.cwd = true)
    (hnormal : ctx.settings.NormalTemplates) {c c' : Call} {b : Block} (h : Opens ctx c b c') :
    ∃ path, ctx.store.contains path = .ok true ∧ ctx.settings.isTemplate path = true ∧
      path ∉ c.document.ancestors ctx.cwd ∧
      c'.document.ancestors ctx.cwd = c.document.ancestors ctx.cwd ++ [path] := by
  obtain ⟨spec, path, text, hresolve, ht, hchild⟩ := h.exists_child
  obtain ⟨_, hstop, hnot⟩ := Include.resolve_eq_ok_iff.1 hresolve
  have hpath : Path.IsNormal path :=
    hnormal _ path (Include.isNormal_target hcwd c.document spec) hstop.mem ht
  refine ⟨path, hstop.answered, ht, hnot, ?_⟩
  rw [hchild, ancestors_child ctx hcwd (Settings.ne_nil_of_isTemplate ht),
    Path.absolute_of_isNormal hpath]

/-- Under settings with normal templates, documents have distinct ancestors at every depth. -/
lemma Descends.nodup_ancestors (hcwd : Path.isAbsolute ctx.cwd = true)
    (hnormal : ctx.settings.NormalTemplates) {c c' : Call} {frames : List Frame}
    (h : Descends ctx c frames c') (hc : (c.document.ancestors ctx.cwd).Nodup) :
    (c'.document.ancestors ctx.cwd).Nodup := by
  refine h.induct (P := fun d => (d.ancestors ctx.cwd).Nodup) hc fun c b c' hopens hc => ?_
  obtain ⟨path, -, -, hnot, hancestors⟩ := hopens.exists_ancestor hcwd hnormal
  rw [hancestors, List.nodup_append]
  refine ⟨hc, by simp, fun a ha p hp hap => hnot ?_⟩
  rw [← List.mem_singleton.1 hp, ← hap]
  exact ha

/-! ### Candidates that are not normal -/

/-- A store whose one file is empty. -/
def loneFile (path : Path) : Store := (MemoryStore.mk [(path, [])] []).toStore

/-- A document without a file that includes the current directory and has one ancestor. -/
def includingHere (ancestor : Path) : Document :=
  { text := "<!--@include .-->".toList, file := [], rootDir := [], parents := [ancestor] }

variable {s : Settings} {target : Path} {codecs : Codecs}

lemma contains_loneFile (p : Path) : (loneFile path).contains p = .ok (decide (p = path)) := by
  by_cases h : p = path
  · simp [loneFile, MemoryStore.toStore, MemoryStore.contains, h]
  · simp [loneFile, MemoryStore.toStore, MemoryStore.contains, h, List.lookup_cons,
      beq_eq_false_iff_ne.2 h]

lemma ancestors_includingHere (habs : Path.isAbsolute path = true) :
    (includingHere (Path.normalize path)).ancestors target = [Path.normalize path] := by
  have hchain : (includingHere (Path.normalize path)).chain = [Path.normalize path] := rfl
  rw [Document.ancestors, hchain, List.map_singleton,
    Path.absolute_of_isNormal (Path.isNormal_normalize habs)]

/-- A candidate that is not normal is found although its normal path is an ancestor. -/
lemma resolve_includingHere (htarget : Path.IsNormal target)
    (hpath : path ∈ s.candidatePaths target) (hne : ¬ Path.IsNormal path) :
    (Include.resolve ⟨loneFile path, s, target, codecs⟩ (includingHere (Path.normalize path))
      Path.here).outcome = .ok path := by
  have habs := Settings.isAbsolute_of_mem_candidatePaths htarget.1 hpath
  have hhere : Include.target target (includingHere (Path.normalize path)) Path.here = target :=
    htarget.normalize_join_here
  obtain ⟨before, after, hsplit, hbefore⟩ := List.eq_append_cons_of_mem hpath
  have hcandidates : Include.candidates s target (includingHere (Path.normalize path))
      Path.here = before ++ path :: after := by
    rw [← hsplit, Settings.candidatePaths, Include.candidates, hhere]
  have hpassed : ∀ p ∈ before, (loneFile path).contains p = .ok false := by
    intro p hp
    simpa [contains_loneFile] using fun h : p = path => hbefore (h ▸ hp)
  have hfound : (loneFile path).contains path = .ok true := by simp [contains_loneFile]
  refine Include.resolve_eq_ok_iff.2 ⟨before, ⟨⟨after, hcandidates⟩, hpassed, hfound⟩, ?_⟩
  rw [ancestors_includingHere habs, List.mem_singleton]
  exact fun h => hne ⟨habs, h.symm⟩

/-- A template that is found although its normal path is an ancestor is opened. -/
lemma opens_includingHere (codecs : Codecs) (htarget : Path.IsNormal target)
    (hpath : path ∈ s.candidatePaths target) (hne : ¬ Path.IsNormal path)
    (ht : s.isTemplate path = true) (depth : Nat) (scope : Scope) :
    Opens ⟨loneFile path, s, target, codecs⟩
      ⟨depth + 1, includingHere (Path.normalize path), scope⟩
      ⟨0, "<!--@include .-->".toList⟩
      ⟨depth, child ⟨loneFile path, s, target, codecs⟩ (includingHere (Path.normalize path)) path
        [], scope⟩ := by
  have hscan : Block.scan "<!--@include .-->".toList
      = .ok [⟨0, "<!--@include .-->".toList⟩] := by decide +kernel
  have hexec : Executes ⟨loneFile path, s, target, codecs⟩
      (nestedWithin ⟨loneFile path, s, target, codecs⟩ depth) (includingHere (Path.normalize path))
      scope ⟨0, "<!--@include .-->".toList⟩ scope :=
    ⟨by decide, _, [], [], none, [], hscan, .here _, by decide⟩
  have hnames : (Block.mk 0 "<!--@include .-->".toList).directive
      = .inclusion [Path.here] false := by decide
  have hresolved : (Run.forEach (Include.resolve ⟨loneFile path, s, target, codecs⟩
      (includingHere (Path.normalize path))) [Path.here]).outcome = .ok ([] ++ path :: []) :=
    Run.forEach_cons_eq_ok_iff.2
      ⟨path, [], resolve_includingHere htarget hpath hne, rfl, rfl⟩
  have hread : (loneFile path).read path = .ok [] := by
    simp [loneFile, MemoryStore.toStore, MemoryStore.read]
  exact .intro hexec hnames (by decide) hresolved rfl hread rfl ht

/-! ### Which settings keep ancestors apart -/

lemma normalTemplates_of_nodup
    (h : ∀ (store : Store) (cwd : Path), Path.isAbsolute cwd = true →
      ∀ (d : Document) (scope : Scope) (depth : Nat) (frames : List Frame) (c : Call),
        (d.ancestors cwd).Nodup → Descends ⟨store, s, cwd, codecs⟩ ⟨depth, d, scope⟩ frames c →
          (c.document.ancestors cwd).Nodup) :
    s.NormalTemplates := by
  intro target path htarget hpath ht
  by_contra hne
  have habs := Settings.isAbsolute_of_mem_candidatePaths htarget.1 hpath
  have hbelow : (child ⟨loneFile path, s, target, codecs⟩ (includingHere (Path.normalize path)) path
      []).ancestors target = [Path.normalize path, Path.normalize path] := by
    refine (ancestors_child ⟨loneFile path, s, target, codecs⟩ htarget.1
      (Settings.ne_nil_of_isTemplate ht)).trans ?_
    simp only [ancestors_includingHere habs, Path.absolute_of_isAbsolute habs]
    rfl
  have hopens := opens_includingHere codecs htarget hpath hne ht 1 .empty
  have hnodup := h _ target htarget.1 _ _ _ _ _
    (by rw [ancestors_includingHere habs]; simp) (.into hopens (.here _))
  rw [hbelow] at hnodup
  simp at hnodup

lemma normalCandidates_of_not_mem
    (h : ∀ (store : Store) (cwd : Path), Path.isAbsolute cwd = true →
      ∀ (d : Document) (spec : Text) (path : Path),
        (Include.resolve ⟨store, s, cwd, codecs⟩ d spec).outcome = .ok path →
          Path.absolute cwd path ∉ d.ancestors cwd) :
    s.NormalCandidates := by
  intro target path htarget hpath
  by_contra hne
  have habs := Settings.isAbsolute_of_mem_candidatePaths htarget.1 hpath
  have hnot := h _ target htarget.1 _ _ _ (resolve_includingHere htarget hpath hne)
  rw [ancestors_includingHere habs, Path.absolute_of_isAbsolute habs] at hnot
  simp at hnot

/-- Under which settings no document occurs twice among its own ancestors, for every store and
every document whose ancestors are distinct to begin with, whatever codecs there are: exactly if
candidates that are templates are normal paths, which they are without separators in the partial
mark and the template extensions.  And under which settings no spec resolves to a spelling of an
ancestor: exactly if all candidates are normal paths. -/
theorem ancestors_nodup_iff (s : Settings) (codecs : Codecs) :
    ((∀ (store : Store) (cwd : Path), Path.isAbsolute cwd = true →
        ∀ (d : Document) (scope : Scope) (depth : Nat) (frames : List Frame) (c : Call),
          (d.ancestors cwd).Nodup → Descends ⟨store, s, cwd, codecs⟩ ⟨depth, d, scope⟩ frames c →
            (c.document.ancestors cwd).Nodup) ↔ s.NormalTemplates) ∧
      ((∀ (store : Store) (cwd : Path), Path.isAbsolute cwd = true →
        ∀ (d : Document) (spec : Text) (path : Path),
          (Include.resolve ⟨store, s, cwd, codecs⟩ d spec).outcome = .ok path →
            Path.absolute cwd path ∉ d.ancestors cwd) ↔ s.NormalCandidates) ∧
      (('/' ∉ s.partialMark ∧ ∀ e ∈ s.templateExtensions, '/' ∉ e.text) → s.NormalTemplates) := by
  refine ⟨⟨normalTemplates_of_nodup, ?_⟩, ⟨normalCandidates_of_not_mem, ?_⟩, fun h =>
    s.normalTemplates_of_no_separator h.1 h.2⟩
  · intro hnormal store cwd hcwd d scope depth frames c hd hdescends
    exact hdescends.nodup_ancestors hcwd hnormal hd
  · intro hnormal store cwd hcwd d spec path hresolve
    obtain ⟨_, hstop, hnot⟩ := Include.resolve_eq_ok_iff.1 hresolve
    have hpath : Path.IsNormal path :=
      hnormal _ path (Include.isNormal_target hcwd d spec) hstop.mem
    rw [Path.absolute_of_isNormal hpath]
    exact hnot

/-- With `./` as partial mark, a document includes a file whose normal path is its own. -/
theorem recursive_include_of_here_mark :
    let ctx : Context :=
      { store := (MemoryStore.mk
          [("/site/./a.kit".toList, Encoding.utf8Bytes "leaf".toList)] []).toStore
        settings := { partialMark := "./".toList }
        cwd := "/site".toList
        codecs := Codec.builtIn }
    let d : Document :=
      { text := "<!--@include a-->".toList, file := "/site/a.kit".toList
        rootDir := "/site".toList, parents := [] }
    (d.ancestors ctx.cwd).Nodup ∧
      (Include.resolve ctx d "a".toList).outcome = .ok "/site/./a.kit".toList ∧
      Path.absolute ctx.cwd "/site/./a.kit".toList ∈ d.ancestors ctx.cwd ∧
      (document ctx d .empty).outcome = .ok "leaf".toList := by
  refine ⟨by decide, ?_, by decide, ?_⟩ <;> decide +kernel

end CommentMarkup.Compile
