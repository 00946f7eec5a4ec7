/-
# What an include asks its store

An include directive asks its store for files in a fixed order.  An include without files, or with
a file that has no name, asks nothing.  Otherwise the specs are searched one after the other, each
among its candidates in their order, and no candidate behind the first existing one is looked at
(`resolve_toStore`).  The search ends with the first spec that does not resolve; then nothing is
read, and nothing compiled.  Only when all specs have resolved are their files read, in the order
of the list, and each template is compiled before the next file is read (`inclusion_in_order`).
-/
import CommentMarkup.Compile
import CommentMarkup.Proofs.Resolution

namespace CommentMarkup

namespace Include

/-- The questions that find the first existing one of some paths: none of the paths before it is
there, and the ones behind it are not asked for. -/
def lookups (m : MemoryStore) (paths : List Path) : List Event :=
  (paths.takeWhile fun p => !m.contains p).map (.probed · false) ++
    ((paths.find? m.contains).map (.probed · true)).toList

/-- The file that a spec stands for: its first candidate that exists, unless it is being compiled
further up. -/
def resolution (m : MemoryStore) (settings : Settings) (cwd : Path) (d : Document) (spec : Text) :
    Except Failure Path :=
  match (candidates settings cwd d spec).find? m.contains with
  | none => .error (.ofProblem (.includeNotFound spec))
  | some path =>
    if (d.ancestors cwd).contains path then
      .error (.ofProblem (.recursiveInclude (d.relative cwd d.file) (d.relative cwd path)))
    else .ok path

/-- What happens while a spec is resolved. -/
def searching (m : MemoryStore) (settings : Settings) (cwd : Path) (d : Document) (spec : Text) :
    List Event :=
  lookups m (candidates settings cwd d spec) ++
    match resolution m settings cwd d spec with
    | .ok path => [.noted (.resolved spec path)]
    | .error _ => []

variable {m : MemoryStore} {settings : Settings} {cwd : Path} {codecs : Codecs} {d : Document}
  {spec : Text}

lemma firstExisting_toStore (paths : List Path) :
    firstExisting m.toStore paths = ⟨.ok (paths.find? m.contains), lookups m paths⟩ := by
  induction paths with
  | nil => rfl
  | cons p rest ih =>
    have hasked : m.toStore.contains p = .ok (m.contains p) := rfl
    cases hp : m.contains p with
    | true =>
      rw [hp] at hasked
      simp [firstExisting, hasked, lookups, hp]
    | false =>
      rw [hp] at hasked
      simp [firstExisting, hasked, ih, lookups, hp]

/-- In a store that is held in memory, a spec is resolved with these questions and this result. -/
lemma resolve_toStore :
    resolve ⟨m.toStore, settings, cwd, codecs⟩ d spec
      = ⟨resolution m settings cwd d spec, searching m settings cwd d spec⟩ := by
  have hfound := firstExisting_toStore (m := m) (candidates settings cwd d spec)
  rw [resolve, hfound, Run.bind_of_ok rfl]
  cases hpath : (candidates settings cwd d spec).find? m.contains with
  | none => simp [searching, resolution, hpath, Run.fail]
  | some path =>
    by_cases hopen : path ∈ d.ancestors cwd
    · simp [searching, resolution, hpath, hopen, Run.fail]
    · simp only [searching, resolution, hpath, List.contains_iff_mem, hopen, if_false]
      rfl

/-- While specs are resolved, nothing is read. -/
lemma not_read_of_searching (path : Path) : Event.read path ∉ searching m settings cwd d spec := by
  unfold searching lookups
  cases resolution m settings cwd d spec <;> simp

end Include

namespace Compile

/-- The template that is opened for a file that an include has found. -/
def opened? (ctx : Context) (d : Document) (base64 : Bool) (path : Path) : Option Document :=
  if base64 then none
  else match ctx.store.read path with
    | .error _ => none
    | .ok bytes =>
      match (decode ctx bytes).outcome with
      | .error _ => none
      | .ok text => if ctx.settings.isTemplate path then some (child ctx d path text) else none

/-- What happens while a file is loaded that an include has found. -/
def loading (ctx : Context) (nested : Document → Scope → Run Text) (d : Document) (scope : Scope)
    (base64 : Bool) (path : Path) : List Event :=
  .read path ::
    match opened? ctx d base64 path with
    | none => []
    | some template =>
      .noted (.including (d.relative ctx.cwd path)) :: (nested template scope).events

variable {ctx : Context} {nested : Document → Scope → Run Text} {d : Document} {scope : Scope}
  {base64 : Bool} {path : Path} {specs : List Text}

lemma decode_events (ctx : Context) (bytes : Bytes) : (decode ctx bytes).events = [] := by
  unfold decode
  split
  · rfl
  split
  · rfl
  · split <;> rfl

/-- A file is read before anything else happens to it. -/
lemma load_events :
    (load ctx nested d scope base64 path).events = loading ctx nested d scope base64 path := by
  cases hread : ctx.store.read path with
  | error fault =>
    have hfile : readFile ctx.store path = ⟨.error (.fault (.io fault)), [.read path]⟩ := by
      simp only [readFile, hread]
    rw [load, hfile, Run.bind_of_error rfl]
    cases base64 <;> simp [loading, opened?, hread]
  | ok bytes =>
    have hfile : readFile ctx.store path = ⟨.ok bytes, [.read path]⟩ := by
      simp only [readFile, hread]
    rw [load, hfile, Run.bind_of_ok rfl]
    cases base64 with
    | true => rfl
    | false =>
      simp only [Bool.false_eq_true, if_false]
      cases htext : (decode ctx bytes).outcome with
      | error f =>
        rw [Run.bind_of_error htext, decode_events]
        simp [loading, opened?, hread, htext]
      | ok text =>
        rw [Run.bind_of_ok htext, decode_events]
        cases htemplate : ctx.settings.isTemplate path with
        | false =>
          simp only [loading, opened?, hread, htext, htemplate, Bool.false_eq_true, if_false]
          rfl
        | true =>
          simp only [loading, opened?, hread, htext, htemplate, Bool.false_eq_true, if_false,
            if_true]
          rfl

/-- Files are loaded one after the other, up to the first one that fails. -/
lemma loads_in_order (ctx : Context) (nested : Document → Scope → Run Text) (d : Document)
    (scope : Scope) (base64 : Bool) (paths : List Path) :
    let run := Run.forEach (load ctx nested d scope base64) paths >>= fun texts =>
      (pure (List.intercalate ['\n'] texts) : Run Text)
    (∃ texts, List.Forall₂ (fun path text =>
        (load ctx nested d scope base64 path).outcome = .ok text) paths texts ∧
      run = ⟨.ok (List.intercalate ['\n'] texts),
        paths.flatMap (loading ctx nested d scope base64)⟩) ∨
    ∃ done path after texts f, paths = done ++ path :: after ∧
      List.Forall₂ (fun path text =>
        (load ctx nested d scope base64 path).outcome = .ok text) done texts ∧
      (load ctx nested d scope base64 path).outcome = .error f ∧
      run = ⟨.error f, (done ++ [path]).flatMap (loading ctx nested d scope base64)⟩ := by
  intro run
  have hevents : ∀ paths : List Path,
      (paths.flatMap fun path => (load ctx nested d scope base64 path).events)
        = paths.flatMap (loading ctx nested d scope base64) := fun paths => by
    simp only [load_events]
  rcases Run.forall₂_or_first_error (load ctx nested d scope base64) paths with
    ⟨texts, htexts⟩ | ⟨done, path, after, texts, f, rfl, hdone, hf⟩
  · refine Or.inl ⟨texts, htexts, ?_⟩
    have hall := Run.forEach_of_ok htexts
    rw [hevents] at hall
    simp only [run]
    rw [hall, Run.bind_of_ok rfl]
    exact congrArg (Run.mk _) (List.append_nil _)
  · refine Or.inr ⟨done, path, after, texts, f, rfl, hdone, hf, ?_⟩
    have hall : Run.forEach (load ctx nested d scope base64) (done ++ path :: after) = _ :=
      Run.forEach_of_error hdone hf
    rw [hevents] at hall
    simp only [run]
    rw [hall, Run.bind_of_error rfl]

/-- An include in a store that is held in memory.

Without files, or with a file that has no name, it fails and asks nothing.  Otherwise either a
first spec does not resolve: then the specs up to this one have been searched, nothing has been
read or compiled, and the failure is that of this spec.  Or all specs resolve: then their files
are loaded behind the whole search in the order of the list, up to the end or to the first one
that fails. -/
theorem inclusion_in_order (m : MemoryStore) (settings : Settings) (cwd : Path) (codecs : Codecs)
    (nested : Document → Scope → Run Text) (d : Document) (scope : Scope) (specs : List Text)
    (base64 : Bool) :
    let ctx : Context := ⟨m.toStore, settings, cwd, codecs⟩
    let run := inclusion ctx nested d scope specs base64
    let resolution := Include.resolution m settings cwd d
    let searching := Include.searching m settings cwd d
    (specs = [] ∨ [] ∈ specs → run = ⟨.error (.ofProblem (.includeNotFound [])), []⟩) ∧
      (specs ≠ [] → [] ∉ specs →
        (∃ before spec after paths f, specs = before ++ spec :: after ∧
          List.Forall₂ (fun s path => resolution s = .ok path) before paths ∧
          resolution spec = .error f ∧
          run = ⟨.error f, before.flatMap searching ++ searching spec⟩ ∧
          ∀ path, Event.read path ∉ run.events) ∨
        ∃ paths, List.Forall₂ (fun s path => resolution s = .ok path) specs paths ∧
          ((∃ texts, List.Forall₂ (fun path text =>
              (load ctx nested d scope base64 path).outcome = .ok text) paths texts ∧
            run = ⟨.ok (List.intercalate ['\n'] texts), specs.flatMap searching ++
              paths.flatMap (loading ctx nested d scope base64)⟩) ∨
          ∃ done path after texts f, paths = done ++ path :: after ∧
            List.Forall₂ (fun path text =>
              (load ctx nested d scope base64 path).outcome = .ok text) done texts ∧
            (load ctx nested d scope base64 path).outcome = .error f ∧
            run = ⟨.error f, specs.flatMap searching ++
              (done ++ [path]).flatMap (loading ctx nested d scope base64)⟩)) := by
  intro ctx run resolution searching
  have hresolve : ∀ s, Include.resolve ctx d s = ⟨resolution s, searching s⟩ := fun _ =>
    Include.resolve_toStore
  constructor
  · intro hnone
    have hguard : (specs.isEmpty || specs.any List.isEmpty) = true := by
      rw [← Bool.not_eq_false, Include.named_iff, not_and_or, not_not, not_not]
      exact hnone
    simp only [run, inclusion, hguard, if_true]
    rfl
  · intro hne hnamed
    have hrun : run = Run.forEach (Include.resolve ctx d) specs >>= fun paths =>
        Run.forEach (load ctx nested d scope base64) paths >>= fun texts =>
          pure (List.intercalate ['\n'] texts) := by
      simp only [run, inclusion, Include.named_iff.2 ⟨hne, hnamed⟩, Bool.false_eq_true, if_false]
    have hevents : ∀ specs : List Text, (specs.flatMap fun s => (Include.resolve ctx d s).events)
        = specs.flatMap searching := fun specs => by simp only [hresolve]
    rcases Run.forall₂_or_first_error (Include.resolve ctx d) specs with
      ⟨paths, hpaths⟩ | ⟨before, spec, after, paths, f, rfl, hbefore, hspec⟩
    · -- all specs resolve, so their files are loaded
      refine Or.inr ⟨paths, by simpa only [hresolve] using hpaths, ?_⟩
      rw [hrun, Run.forEach_of_ok hpaths, Run.bind_of_ok rfl, hevents]
      rcases loads_in_order ctx nested d scope base64 paths with
        ⟨texts, htexts, hloads⟩ | ⟨done, path, after, texts, f, hsplit, htexts, hf, hloads⟩
      · exact Or.inl ⟨texts, htexts, by rw [hloads]⟩
      · exact Or.inr ⟨done, path, after, texts, f, hsplit, htexts, hf, by rw [hloads]⟩
    · -- a first spec does not resolve, so the files are not loaded
      have hstop : run = ⟨.error f, before.flatMap searching ++ searching spec⟩ := by
        rw [hrun, Run.forEach_of_error hbefore hspec, Run.bind_of_error rfl, hevents,
          List.flatMap_append, List.flatMap_singleton]
      refine Or.inl ⟨before, spec, after, paths, f, rfl, by simpa only [hresolve] using hbefore,
        by simpa only [hresolve] using hspec, hstop, fun path hread => ?_⟩
      rw [hstop, List.mem_append, List.mem_flatMap] at hread
      rcases hread with ⟨s, -, hs⟩ | hread
      · exact Include.not_read_of_searching path hs
      · exact Include.not_read_of_searching path hread

/-- A template, a file that is not there, and a file that cannot be read. -/
theorem inclusion_in_order_of_missing_file :
    let m : MemoryStore :=
      ⟨[("/site/b.kit".toList, Encoding.utf8Bytes "b".toList),
        ("/site/d.txt".toList, Encoding.utf8Bytes "d".toList)],
        [("/site/d.txt".toList, ⟨.denied, "/site/d.txt".toList⟩)]⟩
    let ctx : Context := ⟨m.toStore, {}, "/site".toList, Codec.builtIn⟩
    let d : Document :=
      { text := [], file := "/site/a.kit".toList, rootDir := "/site".toList, parents := [] }
    let specs : List Text := ["b".toList, "c".toList, "d.txt".toList]
    let run := inclusion ctx (nestedIn ctx) d .empty specs false
    ∃ before spec after paths f, specs = before ++ spec :: after ∧
      List.Forall₂ (fun s path => Include.resolution m {} "/site".toList d s = .ok path) before
        paths ∧
      Include.resolution m {} "/site".toList d spec = .error f ∧
      run = ⟨.error f, before.flatMap (Include.searching m {} "/site".toList d) ++
        Include.searching m {} "/site".toList d spec⟩ ∧
      ∀ path, Event.read path ∉ run.events := by
  intro m ctx d specs run
  have horder := (inclusion_in_order m {} "/site".toList Codec.builtIn (nestedIn ctx) d .empty specs
    false).2 (by decide) (by decide)
  refine horder.resolve_right ?_
  rintro ⟨paths, hpaths, -⟩
  obtain ⟨first, later, -, hlater, -⟩ := List.forall₂_cons_left_iff.1 hpaths
  obtain ⟨path, more, hmissing, -, -⟩ := List.forall₂_cons_left_iff.1 hlater
  have hnot : Include.resolution m {} "/site".toList d "c".toList
      = .error (.ofProblem (.includeNotFound "c".toList)) := by decide +kernel
  rw [hnot] at hmissing
  simp at hmissing

end Compile

end CommentMarkup
