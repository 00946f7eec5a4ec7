/-
# The search among candidates

A spec stands for the bare name of its target and for that name with each template extension, and
for the same names with the partial mark in front.  The store is asked for them in this order, up to
the first one that it does not answer with no (`StopsAt`).  What comes behind that one never
counts: if it is a file that is being compiled further up, the spec is refused, although another
candidate may exist.  So what a spec resolves to, and what the store is asked on the way, can be
read off the first candidate that exists (`resolve_first_candidate`).
-/
import CommentMarkup.Proofs.Resolution

namespace CommentMarkup

namespace Include

variable {ctx : Context} {d : Document} {spec : Text} {fault : IoFault}

/-! ### What becomes of a spec -/

lemma resolve_eq_recursive_iff {including ancestor : Text} :
    (resolve ctx d spec).outcome
        = .error (.ofProblem (.recursiveInclude including ancestor)) ↔
      ∃ before path, StopsAt ctx.store (candidates ctx.settings ctx.cwd d spec) before path
        (.ok true) ∧ path ∈ d.ancestors ctx.cwd ∧ including = d.relative ctx.cwd d.file ∧
        ancestor = d.relative ctx.cwd path := by
  constructor
  · intro h
    rcases resolve_cases ctx d spec with ⟨_, _, -, -, hrun⟩ | ⟨before, p, hp, hopen, hrun⟩ |
      ⟨_, _, _, -, hrun⟩ | ⟨-, hrun⟩
    · simp [hrun] at h
    · simp only [hrun, Except.error.injEq, Failure.ofProblem_inj, Problem.recursiveInclude.injEq]
        at h
      exact ⟨before, p, hp, hopen, h.1.symm, h.2.symm⟩
    · simp [hrun, Failure.ofProblem] at h
    · simp [hrun, Failure.ofProblem_inj] at h
  · rintro ⟨before, path, hp, hopen, rfl, rfl⟩
    rw [resolve_of_open hp hopen]

lemma resolve_eq_notFound_iff {name : Text} :
    (resolve ctx d spec).outcome = .error (.ofProblem (.includeNotFound name)) ↔
      name = spec ∧
        ∀ path ∈ candidates ctx.settings ctx.cwd d spec, ctx.store.contains path = .ok false := by
  constructor
  · intro h
    rcases resolve_cases ctx d spec with ⟨_, _, -, -, hrun⟩ | ⟨_, _, -, -, hrun⟩ |
      ⟨_, _, _, -, hrun⟩ | ⟨habsent, hrun⟩
    · simp [hrun] at h
    · simp [hrun, Failure.ofProblem_inj] at h
    · simp [hrun, Failure.ofProblem] at h
    · simp only [hrun, Except.error.injEq, Failure.ofProblem_inj, Problem.includeNotFound.injEq]
        at h
      exact ⟨h.symm, habsent⟩
  · rintro ⟨rfl, habsent⟩
    rw [resolve_of_absent habsent]

lemma resolve_eq_refused_iff : (resolve ctx d spec).outcome = .error (.fault (.io fault)) ↔
    ∃ before path, StopsAt ctx.store (candidates ctx.settings ctx.cwd d spec) before path
      (.error fault) := by
  constructor
  · intro h
    rcases resolve_cases ctx d spec with ⟨_, _, -, -, hrun⟩ | ⟨_, _, -, -, hrun⟩ |
      ⟨before, p, fault', hp, hrun⟩ | ⟨-, hrun⟩
    · simp [hrun] at h
    · simp [hrun, Failure.ofProblem] at h
    · obtain rfl : fault' = fault := by simpa [hrun] using h
      exact ⟨before, p, hp⟩
    · simp [hrun, Failure.ofProblem] at h
  · rintro ⟨before, path, hp⟩
    rw [resolve_of_refused hp]

/-! ### The candidates -/

lemma candidates_eq (settings : Settings) (cwd : Path) (d : Document) (spec : Text) :
    let name := Path.fileName (target cwd d spec)
    let marked := settings.partialMark ++ name
    let extensions := settings.templateExtensions.map Extension.text
    candidates settings cwd d spec
      = (name :: extensions.map (name ++ ·) ++ marked :: extensions.map (marked ++ ·)).map
          (Path.join (Path.directory (target cwd d spec))) := by
  simp only [candidates, Settings.candidateNames, Settings.variants, List.map_map]
  rfl

lemma length_candidates (settings : Settings) (cwd : Path) (d : Document) (spec : Text) :
    (candidates settings cwd d spec).length = 2 * (1 + settings.templateExtensions.length) := by
  simp only [candidates_eq, List.length_map, List.length_append, List.length_cons]
  omega

/-- What a spec stands for in a document, what it resolves to, and what is asked for it.

The candidates are the bare name of the target and the name with each extension in the order of the
settings, then the same with the partial mark in front, all in the directory of the target.  A spec
resolves to a path exactly if this is the first candidate that exists and no document further up.
It is refused as a recursive include exactly if the first candidate that exists is a document
further up, whatever comes behind it, and as not found exactly if none of the candidates exists.
A store may also refuse to answer; then this is the failure.  The store is asked for the candidates
up to the one where the search stops, each once and in order, and for nothing else. -/
theorem resolve_first_candidate (ctx : Context) (d : Document) (spec : Text) :
    let name := Path.fileName (target ctx.cwd d spec)
    let marked := ctx.settings.partialMark ++ name
    let extensions := ctx.settings.templateExtensions.map Extension.text
    let paths := candidates ctx.settings ctx.cwd d spec
    let run := resolve ctx d spec
    let calls := run.events.filter Event.isCall
    (paths = (name :: extensions.map (name ++ ·) ++ marked :: extensions.map (marked ++ ·)).map
          (Path.join (Path.directory (target ctx.cwd d spec))) ∧
        paths.length = 2 * (1 + ctx.settings.templateExtensions.length)) ∧
      (∀ path, run.outcome = .ok path ↔
        ∃ before, StopsAt ctx.store paths before path (.ok true) ∧ path ∉ d.ancestors ctx.cwd) ∧
      (∀ including ancestor,
        run.outcome = .error (.ofProblem (.recursiveInclude including ancestor)) ↔
          ∃ before path, StopsAt ctx.store paths before path (.ok true) ∧
            path ∈ d.ancestors ctx.cwd ∧ including = d.relative ctx.cwd d.file ∧
            ancestor = d.relative ctx.cwd path) ∧
      (∀ name, run.outcome = .error (.ofProblem (.includeNotFound name)) ↔
        name = spec ∧ ∀ path ∈ paths, ctx.store.contains path = .ok false) ∧
      (∀ fault, run.outcome = .error (.fault (.io fault)) ↔
        ∃ before path, StopsAt ctx.store paths before path (.error fault)) ∧
      (∀ before path, StopsAt ctx.store paths before path (.ok true) →
        calls = before.map (.probed · false) ++ [.probed path true]) ∧
      (∀ before path fault, StopsAt ctx.store paths before path (.error fault) →
        calls = before.map (.probed · false) ++ [.refused path]) ∧
      ((∀ path ∈ paths, ctx.store.contains path = .ok false) →
        calls = paths.map (.probed · false)) := by
  intro name marked extensions paths run calls
  have hmissed : ∀ before : List Path,
      (before.map (Event.probed · false)).filter Event.isCall = before.map (.probed · false) :=
    fun before => List.filter_eq_self.2 (by simp [Event.isCall])
  refine ⟨⟨candidates_eq _ _ _ _, length_candidates _ _ _ _⟩,
    fun _ => resolve_eq_ok_iff, fun _ _ => resolve_eq_recursive_iff,
    fun _ => resolve_eq_notFound_iff, fun _ => resolve_eq_refused_iff,
    fun before path h => ?_, fun before path fault h => ?_, fun h => ?_⟩
  · by_cases hopen : path ∈ d.ancestors ctx.cwd
    · simp only [calls, run, resolve_of_open h hopen, List.filter_append, hmissed]
      rfl
    · simp only [calls, run, resolve_of_found h hopen, List.filter_append, hmissed]
      exact List.append_nil _
  · simp only [calls, run, resolve_of_refused h, List.filter_append, hmissed]
    rfl
  · simp only [calls, run, resolve_of_absent h, hmissed, paths]

/-- A document that names itself, although another candidate comes later. -/
theorem resolve_first_candidate_of_open_file :
    let m : MemoryStore := ⟨[("/site/a.kit".toList, []), ("/site/_a.kit".toList, [])], []⟩
    let ctx : Context := ⟨m.toStore, {}, "/site".toList, Codec.builtIn⟩
    let d : Document :=
      { text := [], file := "/site/a.kit".toList, rootDir := "/site".toList, parents := [] }
    let run := resolve ctx d "a".toList
    run.outcome = .error (.ofProblem (.recursiveInclude "a.kit".toList "a.kit".toList)) ∧
      run.events.filter Event.isCall
        = [.probed "/site/a".toList false, .probed "/site/a.kit".toList true] := by
  intro m ctx d run
  have hstop : StopsAt ctx.store (candidates ctx.settings ctx.cwd d "a".toList)
      ["/site/a".toList] "/site/a.kit".toList (.ok true) := by
    refine ⟨⟨(candidates ctx.settings ctx.cwd d "a".toList).drop 2, by decide⟩, ?_, by decide⟩
    exact List.forall_mem_singleton.2 (by decide)
  obtain ⟨-, -, hrecursive, -, -, hcalls, -⟩ := resolve_first_candidate ctx d "a".toList
  exact ⟨(hrecursive _ _).2 ⟨_, _, hstop, by decide, by decide, by decide⟩, hcalls _ _ hstop⟩

end Include

end CommentMarkup
