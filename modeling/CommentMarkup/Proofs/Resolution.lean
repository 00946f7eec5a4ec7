/-
# Resolving a spec

The store is asked for the candidates of a spec one after the other, up to the first one that it
does not answer with no (`StopsAt`).  A spec resolves to the first candidate that exists, unless
that is one of the documents being compiled (`resolve_eq_ok_iff`); whatever else happens is a
problem of the directive or a refusal of the store (`resolve_cases`, `resolve_eq_error`).

The check against the documents being compiled compares paths as they are written.  It says
what it should only if candidates are normal paths, which depends on the settings.
`Settings.NormalTemplates` asks it of candidates that are templates, and
`Settings.NormalCandidates` of all of them; the first holds of all settings whose partial mark
and template extensions have no separator (`normalTemplates_of_no_separator`).
-/
import CommentMarkup.Include
import CommentMarkup.Proofs.Path.NormalForm
import CommentMarkup.Proofs.Run

namespace CommentMarkup

lemma Failure.ofProblem_inj {p q : Problem} :
    Failure.ofProblem p = Failure.ofProblem q ↔ p = q := by
  simp [Failure.ofProblem, Diagnostic.ofProblem]

namespace Include

/-- A search among some paths that stops at one of them because of what the store answers there. -/
structure StopsAt (store : Store) (paths before : List Path) (path : Path)
    (answer : Except IoFault Bool) : Prop where
  /-- The paths begin with the ones before it; those behind it are not asked for. -/
  split : ∃ after, paths = before ++ path :: after
  /-- There is nothing at the paths before it. -/
  absent : ∀ q ∈ before, store.contains q = .ok false
  /-- What the store answers. -/
  answered : store.contains path = answer

variable {ctx : Context} {d : Document} {spec : Text} {store : Store} {paths before : List Path}
  {path : Path} {fault : IoFault} {f : Failure}

/-- An include is searched for if it lists files, and each of them has a name. -/
lemma named_iff {specs : List Text} :
    (specs.isEmpty || specs.any List.isEmpty) = false ↔ specs ≠ [] ∧ [] ∉ specs := by
  rw [Bool.or_eq_false_iff, List.isEmpty_eq_false_iff, List.any_eq_false]
  refine and_congr Iff.rfl ⟨fun h hmem => h [] hmem rfl, fun h s hs hempty => ?_⟩
  rw [List.isEmpty_iff] at hempty
  exact h (hempty ▸ hs)

/-! ### Where a search stops -/

lemma StopsAt.mem {answer : Except IoFault Bool} (h : StopsAt store paths before path answer) :
    path ∈ paths := by
  obtain ⟨after, rfl⟩ := h.split
  simp

lemma StopsAt.cons {p : Path} {answer : Except IoFault Bool} (hp : store.contains p = .ok false)
    (h : StopsAt store paths before path answer) :
    StopsAt store (p :: paths) (p :: before) path answer where
  split := by
    obtain ⟨after, rfl⟩ := h.split
    exact ⟨after, rfl⟩
  absent := List.forall_mem_cons.2 ⟨hp, h.absent⟩
  answered := h.answered

/-- A search stops at a file, or where the store refuses an answer, or it does not stop. -/
lemma stopsAt_or_absent (store : Store) (paths : List Path) :
    (∃ before path, StopsAt store paths before path (.ok true)) ∨
      (∃ before path fault, StopsAt store paths before path (.error fault)) ∨
      ∀ path ∈ paths, store.contains path = .ok false := by
  induction paths with
  | nil => exact Or.inr (Or.inr (by simp))
  | cons p rest ih =>
    cases hp : store.contains p with
    | error fault => exact Or.inr (Or.inl ⟨[], p, fault, ⟨rest, rfl⟩, by simp, hp⟩)
    | ok found =>
      cases found with
      | true => exact Or.inl ⟨[], p, ⟨rest, rfl⟩, by simp, hp⟩
      | false =>
        rcases ih with ⟨before, path, h⟩ | ⟨before, path, fault, h⟩ | h
        · exact Or.inl ⟨p :: before, path, h.cons hp⟩
        · exact Or.inr (Or.inl ⟨p :: before, path, fault, h.cons hp⟩)
        · exact Or.inr (Or.inr (List.forall_mem_cons.2 ⟨hp, h⟩))

/-- Paths at which there is no file are asked for and passed. -/
lemma firstExisting_append (hbefore : ∀ p ∈ before, store.contains p = .ok false)
    (rest : List Path) :
    firstExisting store (before ++ rest) = ⟨(firstExisting store rest).outcome,
      before.map (.probed · false) ++ (firstExisting store rest).events⟩ := by
  induction before with
  | nil => rfl
  | cons p before ih =>
    have hlater := ih fun q hq => hbefore q (List.mem_cons_of_mem _ hq)
    simp only [List.cons_append, firstExisting, hbefore p List.mem_cons_self, hlater, List.map_cons]

lemma firstExisting_of_found (h : StopsAt store paths before path (.ok true)) :
    firstExisting store paths
      = ⟨.ok (some path), before.map (.probed · false) ++ [.probed path true]⟩ := by
  obtain ⟨after, rfl⟩ := h.split
  simp only [firstExisting_append h.absent, firstExisting, h.answered]

lemma firstExisting_of_refused (h : StopsAt store paths before path (.error fault)) :
    firstExisting store paths
      = ⟨.error (.fault (.io fault)), before.map (.probed · false) ++ [.refused path]⟩ := by
  obtain ⟨after, rfl⟩ := h.split
  simp only [firstExisting_append h.absent, firstExisting, h.answered]

lemma firstExisting_of_absent (h : ∀ path ∈ paths, store.contains path = .ok false) :
    firstExisting store paths = ⟨.ok none, paths.map (.probed · false)⟩ := by
  have hall := firstExisting_append h []
  simpa only [firstExisting, Run.ok, List.append_nil] using hall

lemma stopsAt_of_firstExisting (h : (firstExisting store paths).outcome = .ok (some path)) :
    ∃ before, StopsAt store paths before path (.ok true) := by
  rcases stopsAt_or_absent store paths with ⟨before, p, hp⟩ | ⟨_, _, _, hp⟩ | habsent
  · obtain rfl : p = path := by simpa [firstExisting_of_found hp] using h
    exact ⟨before, hp⟩
  · simp [firstExisting_of_refused hp] at h
  · simp [firstExisting_of_absent habsent] at h

/-! ### What becomes of a spec -/

lemma resolve_of_found
    (h : StopsAt ctx.store (candidates ctx.settings ctx.cwd d spec) before path (.ok true))
    (hopen : path ∉ d.ancestors ctx.cwd) :
    resolve ctx d spec = ⟨.ok path, before.map (.probed · false) ++ [.probed path true] ++
      [.noted (.resolved spec path)]⟩ := by
  rw [resolve, firstExisting_of_found h, Run.bind_of_ok rfl]
  simp only [hopen, if_false]
  rfl

lemma resolve_of_open
    (h : StopsAt ctx.store (candidates ctx.settings ctx.cwd d spec) before path (.ok true))
    (hopen : path ∈ d.ancestors ctx.cwd) :
    resolve ctx d spec = ⟨.error (.ofProblem (.recursiveInclude (d.relative ctx.cwd d.file)
      (d.relative ctx.cwd path))), before.map (.probed · false) ++ [.probed path true]⟩ := by
  rw [resolve, firstExisting_of_found h, Run.bind_of_ok rfl]
  simp only [hopen, if_true, Run.fail, List.append_nil]

lemma resolve_of_refused
    (h : StopsAt ctx.store (candidates ctx.settings ctx.cwd d spec) before path (.error fault)) :
    resolve ctx d spec = ⟨.error (.fault (.io fault)),
      before.map (.probed · false) ++ [.refused path]⟩ := by
  rw [resolve, firstExisting_of_refused h, Run.bind_of_error rfl]

lemma resolve_of_absent
    (h : ∀ path ∈ candidates ctx.settings ctx.cwd d spec, ctx.store.contains path = .ok false) :
    resolve ctx d spec = ⟨.error (.ofProblem (.includeNotFound spec)),
      (candidates ctx.settings ctx.cwd d spec).map (.probed · false)⟩ := by
  rw [resolve, firstExisting_of_absent h, Run.bind_of_ok rfl]
  simp only [Run.fail, List.append_nil]

/-- A spec resolves in one of four ways. -/
lemma resolve_cases (ctx : Context) (d : Document) (spec : Text) :
    (∃ before path, StopsAt ctx.store (candidates ctx.settings ctx.cwd d spec) before path
        (.ok true) ∧ path ∉ d.ancestors ctx.cwd ∧ (resolve ctx d spec).outcome = .ok path) ∨
      (∃ before path, StopsAt ctx.store (candidates ctx.settings ctx.cwd d spec) before path
        (.ok true) ∧ path ∈ d.ancestors ctx.cwd ∧ (resolve ctx d spec).outcome
          = .error (.ofProblem (.recursiveInclude (d.relative ctx.cwd d.file)
            (d.relative ctx.cwd path)))) ∨
      (∃ before path fault, StopsAt ctx.store (candidates ctx.settings ctx.cwd d spec) before path
        (.error fault) ∧ (resolve ctx d spec).outcome = .error (.fault (.io fault))) ∨
      (∀ path ∈ candidates ctx.settings ctx.cwd d spec, ctx.store.contains path = .ok false) ∧
        (resolve ctx d spec).outcome = .error (.ofProblem (.includeNotFound spec)) := by
  rcases stopsAt_or_absent ctx.store (candidates ctx.settings ctx.cwd d spec) with
    ⟨before, path, h⟩ | ⟨before, path, fault, h⟩ | h
  · by_cases hopen : path ∈ d.ancestors ctx.cwd
    · exact Or.inr (Or.inl ⟨before, path, h, hopen, by rw [resolve_of_open h hopen]⟩)
    · exact Or.inl ⟨before, path, h, hopen, by rw [resolve_of_found h hopen]⟩
  · exact Or.inr (Or.inr (Or.inl ⟨before, path, fault, h, by rw [resolve_of_refused h]⟩))
  · exact Or.inr (Or.inr (Or.inr ⟨h, by rw [resolve_of_absent h]⟩))

/-- A spec resolves to the first candidate that exists, if that is none of the documents
being compiled. -/
lemma resolve_eq_ok_iff : (resolve ctx d spec).outcome = .ok path ↔
    ∃ before, StopsAt ctx.store (candidates ctx.settings ctx.cwd d spec) before path (.ok true) ∧
      path ∉ d.ancestors ctx.cwd := by
  constructor
  · intro h
    rcases resolve_cases ctx d spec with ⟨before, p, hp, hopen, hrun⟩ | ⟨_, _, -, -, hrun⟩ |
      ⟨_, _, _, -, hrun⟩ | ⟨-, hrun⟩
    · obtain rfl : p = path := Except.ok.inj (hrun.symm.trans h)
      exact ⟨before, hp, hopen⟩
    all_goals simp [hrun] at h
  · rintro ⟨before, hp, hopen⟩
    rw [resolve_of_found hp hopen]

/-- A spec does not resolve because something is wrong with it, or because the store refuses to say
whether there is a file. -/
lemma resolve_eq_error (h : (resolve ctx d spec).outcome = .error f) :
    (∃ p, f = .ofProblem p) ∨ ∃ before path fault, f = .fault (.io fault) ∧
      StopsAt ctx.store (candidates ctx.settings ctx.cwd d spec) before path (.error fault) := by
  rcases resolve_cases ctx d spec with ⟨_, _, -, -, hrun⟩ | ⟨_, _, -, -, hrun⟩ |
    ⟨before, path, fault, hstops, hrun⟩ | ⟨-, hrun⟩
  · simp [hrun] at h
  · exact Or.inl ⟨_, (Except.error.inj (hrun.symm.trans h)).symm⟩
  · exact Or.inr ⟨before, path, fault, (Except.error.inj (hrun.symm.trans h)).symm, hstops⟩
  · exact Or.inl ⟨_, (Except.error.inj (hrun.symm.trans h)).symm⟩

/-! ### The target -/

lemma isNormal_target {cwd : Path} (hcwd : Path.isAbsolute cwd = true) (d : Document)
    (spec : Text) : Path.IsNormal (target cwd d spec) := by
  unfold target
  split <;> exact Path.isNormal_absolute hcwd _

end Include

/-! ### Candidates and normal paths -/

namespace Settings

variable {s : Settings}

/-- The paths that a located target may stand for. -/
def candidatePaths (s : Settings) (target : Path) : List Path :=
  (s.candidateNames (Path.fileName target)).map (Path.join (Path.directory target))

/-- Settings under which every candidate that is a template is a normal path. -/
def NormalTemplates (s : Settings) : Prop :=
  ∀ target path, Path.IsNormal target → path ∈ s.candidatePaths target →
    s.isTemplate path = true → Path.IsNormal path

/-- Settings under which every candidate is a normal path. -/
def NormalCandidates (s : Settings) : Prop :=
  ∀ target path, Path.IsNormal target → path ∈ s.candidatePaths target → Path.IsNormal path

lemma isAbsolute_of_mem_candidatePaths {target path : Path}
    (htarget : Path.isAbsolute target = true) (hpath : path ∈ s.candidatePaths target) :
    Path.isAbsolute path = true := by
  obtain ⟨n, -, rfl⟩ := List.mem_map.1 hpath
  exact Path.isAbsolute_join (Path.isAbsolute_directory htarget) n

lemma extension_ne_nil_of_isTemplate {path : Path} (h : s.isTemplate path = true) :
    Path.extension path ≠ [] := by
  simp only [isTemplate, List.any_eq_true, decide_eq_true_eq] at h
  obtain ⟨e, -, he⟩ := h
  rw [← he, Extension.text]
  exact List.cons_ne_nil _ _

lemma ne_nil_of_isTemplate {path : Path} (h : s.isTemplate path = true) : path ≠ [] := by
  rintro rfl
  exact extension_ne_nil_of_isTemplate h (by decide)

/-- Settings without separators build bare names from bare names. -/
lemma not_mem_of_mem_candidateNames (hmark : '/' ∉ s.partialMark)
    (hext : ∀ e ∈ s.templateExtensions, '/' ∉ e.text) {name n : Text} (hname : '/' ∉ name)
    (hn : n ∈ s.candidateNames name) : '/' ∉ n := by
  have hvariants : ∀ base, '/' ∉ base → ∀ x ∈ s.variants base, '/' ∉ x := by
    intro base hbase x hx
    rcases List.mem_cons.1 hx with rfl | hx
    · exact hbase
    · obtain ⟨e, he, rfl⟩ := List.mem_map.1 hx
      simp [hbase, hext e he]
  rcases List.mem_append.1 hn with hn | hn
  · exact hvariants _ hname n hn
  · exact hvariants _ (by simp [hmark, hname]) n hn

/-- Without separators in the partial mark and the template extensions, candidates that are
templates are normal, whatever the names and the extensions are made of. -/
theorem normalTemplates_of_no_separator (hmark : '/' ∉ s.partialMark)
    (hext : ∀ e ∈ s.templateExtensions, '/' ∉ e.text) : s.NormalTemplates := by
  intro target path htarget hpath htemplate
  obtain ⟨n, hn, rfl⟩ := List.mem_map.1 hpath
  have hsep := not_mem_of_mem_candidateNames hmark hext (Path.not_mem_fileName target) hn
  exact Path.isNormal_join_of_extension htarget hsep (extension_ne_nil_of_isTemplate htemplate)

end Settings

end CommentMarkup
