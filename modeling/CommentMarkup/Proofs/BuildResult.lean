/-
# What a build leaves

A build that succeeds has gone through all its stages.  The first one finds the paths and loads
the variables, the second one compiles the source, and neither of them changes the file tree.  The
third one makes directories and writes the compiled document (`write_yields`).  So a run of the
program that has built something leaves a single new or changed file, and it holds what the
compiler makes of the source in the tree that the build has found (`run_leaves`).

The build takes from its host how YAML is read, what codecs there are, and what is done about the
output directory before anything is built.  None of this matters for what a build leaves, but that
the preparation must keep to the output directory (`Host.PreparesOnly`).  It makes directories
that no output may ever stand in (`run_leaves_unused_directory`).
-/
import Mathlib.Data.List.Infix
import CommentMarkup.CommandLine.Standard
import CommentMarkup.Proofs.Run
import CommentMarkup.Proofs.TreeChange

namespace CommentMarkup.Build

variable {α β : Type} {t t' : FileTree} {a : α} {b : β} {host : Host} {job job' : Job}

/-! ### Steps that yield something -/

namespace Step

/-- A step ends with a result, and leaves a tree. -/
def Yields (s : Step α) (t : FileTree) (a : α) (t' : FileTree) : Prop :=
  (s t).ending = .done a ∧ (s t).tree = t'

/-- Two steps in order end with a result if both do. -/
lemma yields_bind {s : Step α} {f : α → Step β} :
    Yields (s >>= f) t b t' ↔ ∃ a t₁, s.Yields t a t₁ ∧ (f a).Yields t₁ b t' := by
  have hbind : s >>= f = andThen s f := rfl
  rw [hbind]
  cases h : (s t).ending with
  | done a => simp [Yields, andThen, h]
  | refused complaint => simp [Yields, andThen, h]
  | broken cause => simp [Yields, andThen, h]

lemma yields_pure {x : α} : Yields (pure x : Step α) t a t' ↔ a = x ∧ t' = t := by
  have hpure : (pure x : Step α) = done x := rfl
  simp [hpure, Yields, done, eq_comm]

lemma yields_done {x : α} : (done x).Yields t a t' ↔ a = x ∧ t' = t := yields_pure

/-- What is said changes nothing. -/
lemma yields_say {level : Int} {message : Text} {u : Unit} :
    (say level message).Yields t u t' ↔ t' = t := by
  simp [Yields, say, eq_comm]

lemma not_yields_refuse {complaint : Text} : ¬ (refuse complaint : Step α).Yields t a t' := by
  simp [Yields, refuse]

lemma not_yields_breakDown {cause : Breakdown} : ¬ (breakDown cause : Step α).Yields t a t' := by
  simp [Yields, breakDown]

lemma yields_demand {cause : Breakdown} {x : Option α} :
    (demand cause x).Yields t a t' ↔ x = some a ∧ t' = t := by
  cases x with
  | none => simp [demand, not_yields_breakDown]
  | some x => simp [demand, yields_done, eq_comm]

lemma yields_probe {cwd path : Path} {found : Bool} :
    (probe cwd path).Yields t found t' ↔ t.isFile cwd path = .ok found ∧ t' = t := by
  cases h : t.isFile cwd path with
  | error fault => simp [Yields, probe, h]
  | ok found' => simp [Yields, probe, h, eq_comm]

/-- A change that succeeds. -/
lemma yields_change {c : FileTree.Change} {u : Unit} :
    (change c).Yields t u t' ↔ c t = (.ok (), t') := by
  cases h : c t with
  | mk outcome after =>
    cases outcome with
    | error fault => simp [Yields, change, h]
    | ok _ => simp [Yields, change, h, eq_comm]

end Step

open Step

/-! ### The stages -/

/-- The variables that a file gives a build. -/
def variablesOf (host : Host) (t : FileTree) (inputDir : Path) (file : Option Path) :
    Except VariablesFault Scope :=
  match file with
  | none | some [] => .ok .empty
  | some file =>
    host.variables t (Path.within inputDir file)

lemma loadVariables_yields {path : Path} {scope : Scope} :
    (loadVariables host path).Yields t scope t' ↔
      host.variables t path = .ok scope ∧ t' = t := by
  unfold Yields loadVariables
  cases host.variables t path with
  | ok loaded => simp [eq_comm]
  | error fault => cases fault <;> simp

lemma initialOf_yields {inputDir : Path} {scope : Scope} (hjob : job.initial = .empty)
    (h : (initialOf host job inputDir).Yields t scope t') :
    variablesOf host t inputDir job.variablesFile = .ok scope ∧ t' = t := by
  unfold initialOf at h
  split at h
  · next hfile =>
    obtain ⟨rfl, rfl⟩ := yields_done.1 h
    rw [hfile, hjob]
    exact ⟨rfl, rfl⟩
  · next hfile =>
    obtain ⟨rfl, rfl⟩ := yields_done.1 h
    rw [hfile, hjob]
    exact ⟨rfl, rfl⟩
  · next file hne hfile =>
    simp only [yields_bind, yields_say, loadVariables_yields, yields_pure, exists_eq_left,
      exists_const] at h
    obtain ⟨loaded, t₁, ⟨hloaded, rfl⟩, rfl, rfl⟩ := h
    rw [hfile]
    cases file with
    | nil => exact absurd rfl hne
    | cons c rest => exact ⟨hloaded, rfl⟩

lemma outputFileOf_yields {outputFile : Path}
    (h : (outputFileOf host job).Yields t outputFile t') :
    ∃ file outputDir, Path.withSuffix host.settings.outputSuffix job.inputFile = .ok file ∧
      job.outputDir = some outputDir ∧ outputFile = Path.within outputDir file ∧ t' = t := by
  unfold outputFileOf at h
  split at h
  · exact absurd h not_yields_breakDown
  · next file hfile =>
    simp only [yields_bind, yields_demand, yields_pure] at h
    obtain ⟨outputDir, t₁, ⟨hdir, rfl⟩, rfl, rfl⟩ := h
    exact ⟨file, outputDir, hfile, hdir, rfl, rfl⟩

/-- A job that has been checked: its paths are found, and its variables are loaded. -/
lemma check_yields (hjob : job.initial = .empty) (h : (check host job).Yields t job' t') :
    ∃ inputDir outputDir file initial, job.inputDir = some inputDir ∧
      job.outputDir = some outputDir ∧
      Path.withSuffix host.settings.outputSuffix job.inputFile = .ok file ∧
      variablesOf host t inputDir job.variablesFile = .ok initial ∧
      job'.source = Path.located host.cwd (Path.join inputDir job.inputFile) ∧
      job'.siteRoot = siteRootOf host job job'.source ∧ job'.initial = initial ∧
      job'.outputFile = Path.within outputDir file ∧ t' = t := by
  unfold check at h
  simp only [yields_bind, yields_say, yields_demand, yields_probe, exists_eq_left,
    exists_const] at h
  obtain ⟨inputDir, t₁, ⟨hinput, rfl⟩, found, t₂, ⟨-, rfl⟩, hfound⟩ := h
  cases found with
  | false => exact absurd hfound not_yields_refuse
  | true =>
    simp only [if_true, yields_bind, yields_say, yields_pure, exists_eq_left, exists_const] at hfound
    obtain ⟨initial, t₃, hload, outputFile, t₄, hname, rfl, rfl⟩ := hfound
    obtain ⟨hinitial, rfl⟩ := initialOf_yields hjob hload
    obtain ⟨file, outputDir, hfile, houtput, rfl, rfl⟩ := outputFileOf_yields hname
    exact ⟨inputDir, outputDir, file, initial, hinput, houtput, hfile, hinitial, rfl, rfl, rfl,
      rfl, rfl⟩

lemma endingOf_eq_done {outcome : Except Failure Text} {text : Text}
    (h : endingOf outcome = .done text) : outcome = .ok text := by
  unfold endingOf at h
  split at h <;> simp_all

/-- A job that has been compiled. -/
lemma compile_yields (h : (compile host job).Yields t job' t') :
    ∃ text, (Compile.file (host.context t) job.source (some job.initial.entries)
        (some job.siteRoot) none).outcome = .ok text ∧
      job' = { job with text := some text } ∧ t' = t := by
  unfold compile at h
  simp only [yields_bind, yields_say, yields_pure, exists_eq_left, exists_const] at h
  obtain ⟨text, t₁, ⟨hcompiled, rfl⟩, rfl, rfl⟩ := h
  exact ⟨text, endingOf_eq_done hcompiled, rfl, rfl⟩

lemma encode_yields {text : Text} {bytes : Bytes}
    (h : (encode host text).Yields t bytes t') :
    ∃ codec, host.codecs host.settings.encoding = some codec ∧ codec.write text = .ok bytes ∧
      t' = t := by
  unfold encode at h
  split at h
  · exact absurd h not_yields_breakDown
  · next codec hcodec =>
    split at h
    · next hbytes =>
      obtain ⟨rfl, rfl⟩ := yields_done.1 h
      exact ⟨codec, hcodec, hbytes, rfl⟩
    · exact absurd h not_yields_breakDown
    · exact absurd h not_yields_breakDown

/-- A job that has been written: the output file holds what the codec writes for its text. -/
lemma write_yields {text : Text} (htext : job.text = some text)
    (h : (write host job).Yields t job' t') :
    ∃ codec bytes place, host.codecs host.settings.encoding = some codec ∧
      codec.write text = .ok bytes ∧ t.Written host.cwd job.outputFile bytes t' place := by
  simp only [write, htext, yields_bind, yields_change, yields_say, yields_pure, exists_eq_left,
    exists_const] at h
  obtain ⟨t₁, hmade, t₂, hempty, bytes, t₃, hbytes, t₄, hwrite, rfl, rfl⟩ := h
  obtain ⟨codec, hcodec, hwritten, rfl⟩ := encode_yields hbytes
  obtain ⟨place, hleft⟩ := FileTree.written_of_writes hmade hempty hwrite
  exact ⟨codec, bytes, place, hcodec, hwritten, hleft⟩

lemma report_yields (h : (report job).Yields t job' t') : t' = t := by
  simp only [report, yields_bind, yields_say, yields_pure, exists_eq_left, exists_const] at h
  exact h.2

/-! ### The preparation -/

/-- Nothing else is done about a directory before the build than to make it, or directories on the
way to it. -/
def Host.PreparesOnly (host : Host) (dir : Path) : Prop :=
  ∀ t : FileTree, t.Grows (host.prepare dir t).2 (FileTree.Through host.cwd dir)

lemma Host.preparesOnly_standard (settings : Settings) (cwd dir : Path) :
    (Host.standard settings cwd).PreparesOnly dir :=
  FileTree.makeDirectories_grows cwd dir

lemma Host.PreparesOnly.grows {dir : Path} {outcome : Except IoFault Unit}
    (h : host.PreparesOnly dir) (hprepare : host.prepare dir t = (outcome, t')) :
    t.Grows t' (FileTree.Through host.cwd dir) :=
  (h t).of_change hprepare

end CommentMarkup.Build

namespace CommentMarkup.CommandLine

open Build Build.Step

variable {host : Host} {inputDir outputDir inputFile : Path} {choices : Choices}
  {t t' : FileTree} {job : Job}

/-- The root directory of a site that is asked for on the command line. -/
lemma siteRootOf_jobOf (source : Path) :
    siteRootOf host (jobOf inputDir outputDir inputFile choices) source
      = match choices.rootDir with
        | none | some [] => Path.parent source
        | some root => Path.located host.cwd root := rfl

/-- A job that the command line asks for, when it has been checked and compiled. -/
lemma compiled_of_yields {checked compiled : Job} {t₁ t₂ : FileTree}
    (hcheck : (check host (jobOf inputDir outputDir inputFile choices)).Yields t checked t₁)
    (hcompile : (compile host checked).Yields t₁ compiled t₂) :
    ∃ file initial text,
      Path.withSuffix host.settings.outputSuffix inputFile = .ok file ∧
      variablesOf host t (Path.tidy inputDir) choices.variablesFile = .ok initial ∧
      (Compile.file (host.context t)
        (Path.located host.cwd (Path.join (Path.tidy inputDir) inputFile)) (some initial.entries)
        (some (siteRootOf host (jobOf inputDir outputDir inputFile choices)
          (Path.located host.cwd (Path.join (Path.tidy inputDir) inputFile))))
        none).outcome = .ok text ∧
      compiled.text = some text ∧
      compiled.outputFile = Path.within (Path.tidy outputDir) file ∧ t₂ = t := by
  obtain ⟨_, _, file, initial, hinput, houtput, hfile, hinitial, hsource, hroot, rfl, hplace,
    rfl⟩ := check_yields rfl hcheck
  obtain rfl := Option.some.inj hinput
  obtain rfl := Option.some.inj houtput
  obtain ⟨text, htext, rfl, rfl⟩ := compile_yields hcompile
  rw [hsource] at hroot
  rw [hsource, hroot] at htext
  exact ⟨file, checked.initial, text, hfile, hinitial, htext, rfl, hplace, rfl⟩

/-- A build of a job that the command line asks for. -/
lemma run_yields (h : (Build.run host (jobOf inputDir outputDir inputFile choices)).Yields t job t') :
    ∃ file initial text codec bytes place,
      Path.withSuffix host.settings.outputSuffix inputFile = .ok file ∧
      variablesOf host t (Path.tidy inputDir) choices.variablesFile = .ok initial ∧
      (Compile.file (host.context t)
        (Path.located host.cwd (Path.join (Path.tidy inputDir) inputFile)) (some initial.entries)
        (some (siteRootOf host (jobOf inputDir outputDir inputFile choices)
          (Path.located host.cwd (Path.join (Path.tidy inputDir) inputFile))))
        none).outcome = .ok text ∧
      host.codecs host.settings.encoding = some codec ∧ codec.write text = .ok bytes ∧
      t.Written host.cwd (Path.within (Path.tidy outputDir) file) bytes t' place := by
  simp only [Build.run, inOrder, yields_bind, yields_done] at h
  obtain ⟨checked, t₁, hcheck, compiled, t₂, hcompile, written, t₃, hwrite, reported, t₄, hreport,
    -, rfl⟩ := h
  obtain ⟨file, initial, text, hfile, hinitial, hcompiled, htext, hplace, rfl⟩ :=
    compiled_of_yields hcheck hcompile
  obtain ⟨codec, bytes, place, hcodec, hbytes, hwritten⟩ := write_yields htext hwrite
  obtain rfl := report_yields hreport
  rw [hplace] at hwritten
  exact ⟨file, initial, text, codec, bytes, place, hfile, hinitial, hcompiled, hcodec, hbytes,
    hwritten⟩

lemma run_of_build {arguments : List Text}
    (hrequest : Request.ofArguments arguments = .build inputFile choices) :
    run host inputDir outputDir arguments t
      = reportOf choices.verbosity
          (build host (jobOf inputDir outputDir inputFile choices) outputDir t) := by
  simp only [run, hrequest]
  rfl

lemma exists_yields_of_success {arguments : List Text}
    (hrequest : Request.ofArguments arguments = .build inputFile choices)
    (hsuccess : (run host inputDir outputDir arguments t).conclusion = .success) :
    ∃ start job, host.prepare (Path.tidy outputDir) t = (.ok (), start) ∧
      (Build.run host (jobOf inputDir outputDir inputFile choices)).Yields start job
        (run host inputDir outputDir arguments t).tree := by
  rw [run_of_build hrequest] at hsuccess ⊢
  unfold reportOf at hsuccess ⊢
  split at hsuccess
  · next job hdone =>
    have hbuild : (build host (jobOf inputDir outputDir inputFile choices) outputDir).Yields t job
        (build host (jobOf inputDir outputDir inputFile choices) outputDir t).tree := ⟨hdone, rfl⟩
    obtain ⟨_, start, hprepared, hyields⟩ := yields_bind.1 hbuild
    exact ⟨start, job, yields_change.1 hprepared, hyields⟩
  · simp at hsuccess
  · simp at hsuccess

/-- What changes between the tree that a run finds and the one that it leaves, if something has
only been prepared and then written. -/
lemma changes_of_written {start : FileTree} {file : Path} {bytes : Bytes} {place other : Place}
    (hfile : Path.withSuffix host.settings.outputSuffix inputFile = .ok file)
    (hgrows : t.Grows start (FileTree.Through host.cwd (Path.tidy outputDir)))
    (hwritten : start.Written host.cwd (Path.within (Path.tidy outputDir) file) bytes t' place)
    (hother : other ≠ place) :
    t'.find? other = t.find? other ∨ (t.find? other = none ∧ t'.find? other = some .directory ∧
      (FileTree.Through host.cwd (Path.within (Path.tidy outputDir) file) other ∨
        Path.isAbsolute inputFile = true ∧
          FileTree.Through host.cwd (Path.tidy outputDir) other)) := by
  have hway : FileTree.Through host.cwd (Path.tidy outputDir) other →
      FileTree.Through host.cwd (Path.within (Path.tidy outputDir) file) other ∨
        Path.isAbsolute inputFile = true ∧
          FileTree.Through host.cwd (Path.tidy outputDir) other := by
    intro hthrough
    cases habsolute : Path.isAbsolute inputFile with
    | true => exact Or.inr ⟨rfl, hthrough⟩
    | false =>
      refine Or.inl (FileTree.through_within (Path.tidy_ne_nil outputDir) ?_ hthrough)
      rw [Path.isAbsolute_withSuffix hfile, habsolute]
  rcases hwritten.others other hother with hsame | ⟨hnone, hdirectory, hthrough⟩
  · rw [hsame]
    exact (hgrows other).imp_right fun ⟨hnone, hdirectory, hthrough⟩ =>
      ⟨hnone, hdirectory, hway hthrough⟩
  · rcases hgrows other with hsame | ⟨-, hmadeBefore, -⟩
    · exact Or.inr ⟨hsame ▸ hnone, hdirectory, Or.inl hthrough⟩
    · rw [hmadeBefore] at hnone
      simp at hnone

/-- What a run of the program leaves that has built something.

The directory for the output is prepared first.  In the tree that is there then, the variables are
loaded and the source is compiled, with the root directory that is asked for, or else with the
directory of the source.  In the end the output file holds what the codec of the settings writes
for the text that has been compiled.  Nothing else has changed since the preparation, but that
there may be new directories on the way to the output file.

If the preparation keeps to the directory for the output, then nothing else has changed in the
whole run, but that there may be new directories on the way to the output file, or on the way to
the directory for the output.  This directory is on the way to the output file, too, unless the
source is given by an absolute path. -/
theorem run_leaves (host : Host) (inputDir outputDir inputFile : Path) (choices : Choices)
    (arguments : List Text) (tree : FileTree)
    (hrequest : Request.ofArguments arguments = .build inputFile choices)
    (hsuccess : (run host inputDir outputDir arguments tree).conclusion = .success) :
    let source := Path.located host.cwd (Path.join (Path.tidy inputDir) inputFile)
    let siteRoot := match choices.rootDir with
      | none | some [] => Path.parent source
      | some root => Path.located host.cwd root
    let final := (run host inputDir outputDir arguments tree).tree
    ∃ start initial text codec bytes file place,
      host.prepare (Path.tidy outputDir) tree = (.ok (), start) ∧
      variablesOf host start (Path.tidy inputDir) choices.variablesFile = .ok initial ∧
      (Compile.file (host.context start) source (some initial.entries) (some siteRoot)
        none).outcome = .ok text ∧
      host.codecs host.settings.encoding = some codec ∧ codec.write text = .ok bytes ∧
      Path.withSuffix host.settings.outputSuffix inputFile = .ok file ∧
      start.Written host.cwd (Path.within (Path.tidy outputDir) file) bytes final place ∧
      (host.PreparesOnly (Path.tidy outputDir) →
        ∀ other, other ≠ place → final.find? other = tree.find? other ∨
          (tree.find? other = none ∧ final.find? other = some .directory ∧
            (FileTree.Through host.cwd (Path.within (Path.tidy outputDir) file) other ∨
              Path.isAbsolute inputFile = true ∧
                FileTree.Through host.cwd (Path.tidy outputDir) other))) := by
  intro source siteRoot final
  obtain ⟨start, job, hprepared, hyields⟩ := exists_yields_of_success hrequest hsuccess
  obtain ⟨file, initial, text, codec, bytes, place, hfile, hinitial, htext, hcodec, hbytes,
    hwritten⟩ := run_yields hyields
  rw [siteRootOf_jobOf] at htext
  exact ⟨start, initial, text, codec, bytes, file, place, hprepared, hinitial, htext, hcodec,
    hbytes, hfile, hwritten, fun hprepares _ hother =>
      changes_of_written hfile (hprepares.grows hprepared) hwritten hother⟩

/-- A source in a directory of its own, with variables from a file and a root directory from which
it includes another file; the output directory is missing. -/
theorem run_leaves_of_missing_directory :
    let host : Host := .standard {} "/w".toList
    let tree : FileTree :=
      (((FileTree.empty.withFile ["w".toList, "in".toList, "sub".toList, "a.kit".toList]
          (Encoding.utf8Bytes "<!--@include /b--> <!--$n-->".toList)).withFile
        ["w".toList, "in".toList, "b.kit".toList] (Encoding.utf8Bytes "b".toList)).withFile
        ["w".toList, "in".toList, "v.yaml".toList] (Encoding.utf8Bytes "n: 1".toList))
    let arguments : List Text := ["--inputFile".toList, "sub/a.kit".toList,
      "--variablesFile".toList, "v.yaml".toList, "--rootDir".toList, "in".toList]
    let r := run host "in".toList "out".toList arguments tree
    r.conclusion = .success ∧ ∃ (start : FileTree) (place : Place),
      start.Written "/w".toList "out/sub/a.html".toList (Encoding.utf8Bytes "b 1".toList) r.tree
        place ∧
      ∀ other, other ≠ place → r.tree.find? other = tree.find? other ∨
        (tree.find? other = none ∧ r.tree.find? other = some .directory ∧
          FileTree.Through "/w".toList "out/sub/a.html".toList other) := by
  intro host tree arguments r
  have hsuccess : r.conclusion = .success := by decide +kernel
  have hrequest : Request.ofArguments arguments = .build "sub/a.kit".toList
      { inputFile := some "sub/a.kit".toList, variablesFile := some "v.yaml".toList
        rootDir := some "in".toList } := by decide +kernel
  obtain ⟨start, initial, text, codec, bytes, file, place, hprepared, hinitial, htext, hcodec,
    hbytes, hfile, hwritten, hchanges⟩ := run_leaves host _ _ _ _ arguments tree hrequest hsuccess
  obtain rfl : (FileTree.makeDirectories host.cwd (Path.tidy "out".toList) tree).2 = start :=
    congrArg Prod.snd hprepared
  have hvariables : variablesOf host
      (FileTree.makeDirectories host.cwd (Path.tidy "out".toList) tree).2
      (Path.tidy "in".toList) (some "v.yaml".toList)
        = .ok ⟨[("n".toList, "1".toList)]⟩ := by decide +kernel
  obtain rfl : _ = initial := Except.ok.inj (hvariables.symm.trans hinitial)
  have hcompiled : (Compile.file (host.context (FileTree.makeDirectories host.cwd
      (Path.tidy "out".toList) tree).2) "/w/in/sub/a.kit".toList
      (some [("n".toList, "1".toList)]) (some "/w/in".toList) none).outcome
        = .ok "b 1".toList := by decide +kernel
  obtain rfl : _ = text := Except.ok.inj (hcompiled.symm.trans htext)
  obtain rfl : Codec.ofEncoding .utf8 = codec := Option.some.inj hcodec
  have hencoded : (Codec.ofEncoding .utf8).write "b 1".toList
      = .ok (Encoding.utf8Bytes "b 1".toList) := by decide +kernel
  obtain rfl : _ = bytes := Except.ok.inj (hencoded.symm.trans hbytes)
  have hnamed : Path.withSuffix host.settings.outputSuffix "sub/a.kit".toList
      = .ok "sub/a.html".toList := by decide +kernel
  obtain rfl : _ = file := Except.ok.inj (hnamed.symm.trans hfile)
  refine ⟨hsuccess, _, place, hwritten, fun other hother => ?_⟩
  refine (hchanges (Host.preparesOnly_standard _ _ _) other hother).imp_right ?_
  exact fun ⟨hnone, hdirectory, hthrough⟩ => ⟨hnone, hdirectory,
    hthrough.resolve_right fun ⟨habsolute, _⟩ => absurd habsolute (by decide)⟩

/-- A source that is given by an absolute path: its output is written beside it, and the directory
for the output is made all the same, although it is not on the way to the output file. -/
theorem run_leaves_unused_directory :
    let host : Host := .standard {} "/w".toList
    let tree : FileTree :=
      FileTree.empty.withFile ["w".toList, "in".toList, "a.kit".toList]
        (Encoding.utf8Bytes "a".toList)
    let directory : Place := ["w".toList, "out".toList]
    let r := run host "in".toList "out".toList ["--inputFile".toList, "/w/in/a.kit".toList] tree
    r.conclusion = .success ∧
      r.tree.find? ["w".toList, "in".toList, "a.html".toList]
        = some (.file (Encoding.utf8Bytes "a".toList)) ∧
      tree.find? directory = none ∧ r.tree.find? directory = some .directory ∧
      ¬ FileTree.Through "/w".toList
        (Path.within (Path.tidy "out".toList) "/w/in/a.html".toList) directory := by
  intro host tree directory r
  refine ⟨by decide +kernel, by decide +kernel, by decide +kernel, by decide +kernel, ?_⟩
  rintro ⟨upper, hupper, hplace⟩
  have hway : Path.components (Path.within (Path.tidy "out".toList) "/w/in/a.html".toList)
      = ["w".toList, "in".toList, "a.html".toList] := by decide
  rw [hway, ← List.mem_inits] at hupper
  revert upper
  decide

end CommentMarkup.CommandLine
