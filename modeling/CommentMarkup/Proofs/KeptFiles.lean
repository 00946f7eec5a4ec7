/-
# What a run that fails leaves

A run of the program that does not succeed leaves every file as it was, with one exception: a
document that has been compiled, but has no bytes in the encoding of the settings, leaves an empty
file where it would have been written (`failed_run_leaves`).  The output file is emptied before the
document is encoded, so a former output is lost then (`failed_run_empties_output`).

A build changes the tree in its third stage only, and before that only to prepare the directory for
the output.  Making directories adds no files, and neither does a write that is refused.  A file
that has been emptied can be written, so what is left to fail behind that is the encoding
(`write_fails`).
-/
import CommentMarkup.Proofs.BuildResult

namespace CommentMarkup.FileTree

variable {t t' t'' : FileTree} {cwd p : Path} {place other : Place} {new : Place → Prop}
  {content : Bytes} {fault : IoFault}

/-! ### The files of two trees -/

/-- At a place, two trees have the same file, or both have none. -/
def SameFileAt (t t' : FileTree) (place : Place) : Prop :=
  ∀ content, t'.find? place = some (.file content) ↔ t.find? place = some (.file content)

lemma SameFileAt.refl (t : FileTree) (place : Place) : t.SameFileAt t place := fun _ => Iff.rfl

lemma SameFileAt.trans (h : t.SameFileAt t' place) (h' : t'.SameFileAt t'' place) :
    t.SameFileAt t'' place := fun content => (h' content).trans (h content)

/-- A new directory is no file. -/
lemma sameFileAt_of_directory {P : Prop} (h : t'.find? place = t.find? place ∨
    (t.find? place = none ∧ t'.find? place = some .directory ∧ P)) : t.SameFileAt t' place := by
  intro content
  rcases h with hsame | ⟨hnone, hdirectory, -⟩
  · rw [hsame]
  · rw [hnone, hdirectory]
    simp

lemma Grows.sameFileAt (h : t.Grows t' new) (place : Place) : t.SameFileAt t' place :=
  sameFileAt_of_directory (h place)

/-- A file that is written leaves the other files as they were. -/
lemma Written.sameFileAt (h : Written cwd p content t t' place) (hother : other ≠ place) :
    t.SameFileAt t' other :=
  sameFileAt_of_directory (h.others other hother)

/-- A write that is refused changes nothing. -/
lemma write_eq_error (h : write cwd p content t = (.error fault, t')) : t' = t := by
  unfold write at h
  split at h
  · exact (Prod.mk.inj h).2.symm
  · split at h
    · exact (Prod.mk.inj h).2.symm
    · simp at h

end CommentMarkup.FileTree

namespace CommentMarkup.Build

open FileTree

variable {α β : Type} {t t' : FileTree} {a : α} {host : Host} {job : Job}

/-! ### Steps that fail -/

namespace Step

/-- A step ends without a result, and leaves a tree. -/
def Fails (s : Step α) (t t' : FileTree) : Prop :=
  (∀ a, (s t).ending ≠ .done a) ∧ (s t).tree = t'

lemma yields_or_fails (s : Step α) (t : FileTree) :
    (∃ a, s.Yields t a (s t).tree) ∨ s.Fails t (s t).tree := by
  cases h : (s t).ending with
  | done a => exact Or.inl ⟨a, h, rfl⟩
  | refused complaint => exact Or.inr ⟨by simp [h], rfl⟩
  | broken cause => exact Or.inr ⟨by simp [h], rfl⟩

/-- Two steps in order fail if the first one does, or if it ends with a result and the second one
fails. -/
lemma fails_bind {s : Step α} {f : α → Step β} :
    (s >>= f).Fails t t' ↔ s.Fails t t' ∨ ∃ a t₁, s.Yields t a t₁ ∧ (f a).Fails t₁ t' := by
  have hbind : s >>= f = andThen s f := rfl
  rw [hbind]
  cases h : (s t).ending with
  | done a => simp [Fails, Yields, andThen, h]
  | refused complaint => simp [Fails, Yields, andThen, h]
  | broken cause => simp [Fails, Yields, andThen, h]

lemma not_fails_done {x : α} : ¬ (done x).Fails t t' := fun h => h.1 x rfl

lemma not_fails_pure {x : α} : ¬ (pure x : Step α).Fails t t' := not_fails_done

lemma not_fails_say {level : Int} {message : Text} : ¬ (say level message).Fails t t' :=
  fun h => h.1 () rfl

/-- A change that is refused. -/
lemma fails_change {c : FileTree.Change} :
    (change c).Fails t t' ↔ ∃ fault, c t = (.error fault, t') := by
  cases h : c t with
  | mk outcome after =>
    cases outcome with
    | error fault => simp [Fails, change, h]
    | ok _ => simp [Fails, change, h]

/-! ### Steps that change nothing -/

/-- However a step ends, it leaves the tree that it has found. -/
def Keeps (s : Step α) : Prop := ∀ t, (s t).tree = t

lemma Keeps.bind {s : Step α} {f : α → Step β} (hs : s.Keeps) (hf : ∀ a, (f a).Keeps) :
    (s >>= f).Keeps := by
  intro t
  have hbind : s >>= f = andThen s f := rfl
  rw [hbind]
  cases h : (s t).ending with
  | done a =>
    simp only [andThen, h]
    rw [hf a, hs t]
  | refused complaint => simp [andThen, h, hs t]
  | broken cause => simp [andThen, h, hs t]

lemma Keeps.of_fails {s : Step α} (hs : s.Keeps) (h : s.Fails t t') : t' = t :=
  h.2.symm.trans (hs t)

lemma keeps_done (x : α) : (done x).Keeps := fun _ => rfl

lemma keeps_pure (x : α) : (pure x : Step α).Keeps := keeps_done x

lemma keeps_refuse (complaint : Text) : (refuse complaint : Step α).Keeps := fun _ => rfl

lemma keeps_breakDown (cause : Breakdown) : (breakDown cause : Step α).Keeps := fun _ => rfl

lemma keeps_say (level : Int) (message : Text) : (say level message).Keeps := fun _ => rfl

lemma keeps_demand (cause : Breakdown) (x : Option α) : (demand cause x).Keeps := by
  cases x with
  | none => exact keeps_breakDown cause
  | some a => exact keeps_done a

lemma keeps_probe (cwd path : Path) : (probe cwd path).Keeps := by
  intro t
  unfold probe
  split <;> rfl

end Step

open Step

/-! ### The stages -/

lemma keeps_initialOf (host : Host) (job : Job) (inputDir : Path) :
    (initialOf host job inputDir).Keeps := by
  unfold initialOf
  split
  · exact keeps_done _
  · exact keeps_done _
  · have hload : ∀ path, (loadVariables host path).Keeps := fun _ _ => rfl
    exact (hload _).bind fun _ => (keeps_say _ _).bind fun _ => keeps_pure _

lemma keeps_outputFileOf (host : Host) (job : Job) : (outputFileOf host job).Keeps := by
  unfold outputFileOf
  split
  · exact keeps_breakDown _
  · exact (keeps_demand _ _).bind fun _ => keeps_pure _

/-- Checking a job changes nothing. -/
lemma keeps_check (host : Host) (job : Job) : (check host job).Keeps := by
  unfold check
  refine (keeps_say _ _).bind fun _ => (keeps_say _ _).bind fun _ =>
    (keeps_demand _ _).bind fun inputDir => (keeps_probe _ _).bind fun found => ?_
  cases found with
  | false => exact keeps_refuse _
  | true =>
    refine (keeps_say _ _).bind fun _ => (keeps_say _ _).bind fun _ => ?_
    refine (keeps_initialOf host job inputDir).bind fun initial => ?_
    refine (keeps_outputFileOf host job).bind fun outputFile => ?_
    exact (keeps_say _ _).bind fun _ => keeps_pure _

/-- Compiling a job changes nothing. -/
lemma keeps_compile (host : Host) (job : Job) : (compile host job).Keeps := by
  have hcompiled : (compiled host job).Keeps := fun _ => rfl
  exact (keeps_say _ _).bind fun _ => hcompiled.bind fun _ => (keeps_say _ _).bind fun _ =>
    keeps_pure _

/-- A text that the codec of the settings does not write, or there is no such codec. -/
def Unencodable (host : Host) (text : Text) : Prop :=
  ∀ codec bytes, host.codecs host.settings.encoding = some codec → codec.write text ≠ .ok bytes

lemma encode_fails {text : Text} (h : (encode host text).Fails t t') :
    Unencodable host text ∧ t' = t := by
  have hkeeps : (encode host text).Keeps := by
    unfold encode
    split
    · exact keeps_breakDown _
    · split
      · exact keeps_done _
      · exact keeps_breakDown _
      · exact keeps_breakDown _
  refine ⟨fun codec bytes hcodec hbytes => ?_, hkeeps.of_fails h⟩
  have hdone : encode host text = done bytes := by simp only [encode, hcodec, hbytes]
  rw [hdone] at h
  exact not_fails_done h

/-- A document that is not written leaves all files as they were, unless it has no bytes: then
there is an empty file in its place. -/
lemma write_fails {text : Text} (htext : job.text = some text)
    (h : (write host job).Fails t t') :
    (∀ place, t.SameFileAt t' place) ∨
      Unencodable host text ∧ ∃ place, t.Written host.cwd job.outputFile [] t' place := by
  have hgrows := makeDirectories_grows host.cwd (Path.parent job.outputFile) t
  simp only [write, htext, fails_bind, fails_change, yields_change] at h
  rcases h with ⟨fault, hmake⟩ | ⟨_, t₁, hmade, h⟩
  · -- a directory cannot be made
    exact Or.inl (hgrows.of_change hmake).sameFileAt
  have hgrows := hgrows.of_change hmade
  rcases h with ⟨fault, hopen⟩ | ⟨_, t₂, hempty, h⟩
  · -- the file cannot be written at all
    obtain rfl := write_eq_error hopen
    exact Or.inl hgrows.sameFileAt
  obtain ⟨place, hemptied⟩ := written_of_write hmade hempty
  rcases h with hencode | ⟨bytes, t₃, hencoded, h⟩
  · obtain ⟨hno, rfl⟩ := encode_fails hencode
    exact Or.inr ⟨hno, place, hemptied⟩
  -- a file that has been emptied can be written
  obtain ⟨_, _, _, rfl⟩ := encode_yields hencoded
  rcases h with ⟨fault, hwrite⟩ | ⟨_, t₄, hwritten, h⟩
  · rw [hemptied.write_eq] at hwrite
    simp at hwrite
  · rcases h with hsay | ⟨_, _, _, hpure⟩
    · exact absurd hsay not_fails_say
    · exact absurd hpure not_fails_pure

lemma not_report_fails : ¬ (report job).Fails t t' := by
  simp [report, fails_bind, not_fails_say, not_fails_pure]

end CommentMarkup.Build

namespace CommentMarkup.CommandLine

open Build Build.Step FileTree

variable {host : Host} {inputDir outputDir inputFile : Path} {choices : Choices}
  {arguments : List Text} {t t' tree : FileTree}

/-! ### The whole run -/

/-- In a tree, the variables of a build can be loaded, and its source compiles to a text. -/
def CompilesTo (host : Host) (inputDir inputFile : Path) (choices : Choices) (t : FileTree)
    (text : Text) : Prop :=
  let source := Path.located host.cwd (Path.join (Path.tidy inputDir) inputFile)
  let siteRoot := match choices.rootDir with
    | none | some [] => Path.parent source
    | some root => Path.located host.cwd root
  ∃ initial, variablesOf host t (Path.tidy inputDir) choices.variablesFile = .ok initial ∧
    (Compile.file (host.context t) source (some initial.entries) (some siteRoot)
      none).outcome = .ok text

/-- A build that stops leaves all files as they were, unless it stops where its document is
encoded. -/
lemma run_fails (h : (Build.run host (jobOf inputDir outputDir inputFile choices)).Fails t t') :
    (∀ place, t.SameFileAt t' place) ∨ ∃ text file place,
      CompilesTo host inputDir inputFile choices t text ∧ Unencodable host text ∧
      Path.withSuffix host.settings.outputSuffix inputFile = .ok file ∧
      t.Written host.cwd (Path.within (Path.tidy outputDir) file) [] t' place := by
  simp only [Build.run, inOrder, fails_bind] at h
  rcases h with hcheck | ⟨checked, t₁, hcheck, hcompile | ⟨compiled, t₂, hcompile, h⟩⟩
  · obtain rfl := (keeps_check host _).of_fails hcheck
    exact Or.inl (SameFileAt.refl _)
  · have hkept : t₁ = t := hcheck.2.symm.trans (keeps_check host _ t)
    obtain rfl := (keeps_compile host _).of_fails hcompile
    rw [hkept]
    exact Or.inl (SameFileAt.refl _)
  · obtain ⟨file, initial, text, hfile, hinitial, hcompiled, htext, hplace, rfl⟩ :=
      compiled_of_yields hcheck hcompile
    rw [siteRootOf_jobOf] at hcompiled
    rcases h with hwrite | ⟨_, _, _, hreport | ⟨_, _, _, hdone⟩⟩
    · rcases write_fails htext hwrite with hsame | ⟨hno, place, hwritten⟩
      · exact Or.inl hsame
      · rw [hplace] at hwritten
        exact Or.inr ⟨text, file, place, ⟨initial, hinitial, hcompiled⟩, hno, hfile, hwritten⟩
    · exact absurd hreport not_report_fails
    · exact absurd hdone not_fails_done

/-- The same with the directory for the output, which is prepared before. -/
lemma build_fails (hprepares : host.PreparesOnly (Path.tidy outputDir))
    (h : (build host (jobOf inputDir outputDir inputFile choices) outputDir).Fails tree t') :
    (∀ place, tree.SameFileAt t' place) ∨ ∃ start text file place,
      host.prepare (Path.tidy outputDir) tree = (.ok (), start) ∧
      CompilesTo host inputDir inputFile choices start text ∧ Unencodable host text ∧
      Path.withSuffix host.settings.outputSuffix inputFile = .ok file ∧
      start.Written host.cwd (Path.within (Path.tidy outputDir) file) [] t' place ∧
      ∀ other, other ≠ place → tree.SameFileAt t' other := by
  rcases fails_bind.1 h with hprepare | ⟨_, start, hprepared, hrun⟩
  · obtain ⟨fault, hprepare⟩ := fails_change.1 hprepare
    exact Or.inl (hprepares.grows hprepare).sameFileAt
  have hprepared := yields_change.1 hprepared
  have hgrows := hprepares.grows hprepared
  rcases run_fails hrun with hsame | ⟨text, file, place, htext, hno, hfile, hwritten⟩
  · exact Or.inl fun place => (hgrows.sameFileAt place).trans (hsame place)
  · exact Or.inr ⟨start, text, file, place, hprepared, htext, hno, hfile, hwritten,
      fun other hother => (hgrows.sameFileAt other).trans (hwritten.sameFileAt hother)⟩

lemma tree_of_build (hrequest : Request.ofArguments arguments = .build inputFile choices) :
    (run host inputDir outputDir arguments tree).tree
      = (build host (jobOf inputDir outputDir inputFile choices) outputDir tree).tree := by
  rw [run_of_build hrequest]
  unfold reportOf
  split <;> rfl

/-- A run that does not succeed is of no build, or of one that fails. -/
lemma fails_of_not_success
    (h : (run host inputDir outputDir arguments tree).conclusion ≠ .success) :
    (run host inputDir outputDir arguments tree).tree = tree ∨ ∃ inputFile choices,
      Request.ofArguments arguments = .build inputFile choices ∧
      (build host (jobOf inputDir outputDir inputFile choices) outputDir).Fails tree
        (run host inputDir outputDir arguments tree).tree := by
  cases hrequest : Request.ofArguments arguments with
  | misuse => exact Or.inl (by simp [run, hrequest])
  | version => exact Or.inl (by simp [run, hrequest])
  | help => exact Or.inl (by simp [run, hrequest])
  | build inputFile choices =>
    refine Or.inr ⟨inputFile, choices, rfl, fun job hdone => h ?_, (tree_of_build hrequest).symm⟩
    rw [run_of_build hrequest, reportOf, hdone]

/-- What a run of the program leaves that does not succeed, if the preparation keeps to the
directory for the output.

Every file is as it was, and no file is new, with one exception.  It is a build whose document has
been compiled and is to be written, but is not written by the codec of the settings.  It leaves an
empty file where the document should be, whatever has been there before, and all other files as
they were. -/
theorem failed_run_leaves (host : Host) (inputDir outputDir : Path) (arguments : List Text)
    (tree : FileTree) (hprepares : host.PreparesOnly (Path.tidy outputDir))
    (hfail : (run host inputDir outputDir arguments tree).conclusion ≠ .success) :
    let final := (run host inputDir outputDir arguments tree).tree
    (∀ place, tree.SameFileAt final place) ∨ ∃ inputFile choices start text file place,
      Request.ofArguments arguments = .build inputFile choices ∧
      host.prepare (Path.tidy outputDir) tree = (.ok (), start) ∧
      CompilesTo host inputDir inputFile choices start text ∧
      Unencodable host text ∧
      Path.withSuffix host.settings.outputSuffix inputFile = .ok file ∧
      start.Written host.cwd (Path.within (Path.tidy outputDir) file) [] final place ∧
      ∀ other, other ≠ place → tree.SameFileAt final other := by
  intro final
  rcases fails_of_not_success hfail with hkept | ⟨inputFile, choices, hrequest, hbuild⟩
  · left
    intro place
    have hfinal : final = tree := hkept
    rw [hfinal]
    exact .refl tree place
  · rcases build_fails hprepares hbuild with hsame | ⟨start, text, file, place, hleft⟩
    · exact Or.inl hsame
    · exact Or.inr ⟨inputFile, choices, start, text, file, place, hrequest, hleft⟩

/-- An include that is not found, and an output from before. -/
theorem failed_run_leaves_of_missing_include :
    let host : Host := .standard {} "/w".toList
    let tree : FileTree :=
      (FileTree.empty.withFile ["w".toList, "in".toList, "a.kit".toList]
          (Encoding.utf8Bytes "<!--$n=1--><!--@include b-->".toList)).withFile
        ["w".toList, "out".toList, "a.html".toList] (Encoding.utf8Bytes "old".toList)
    let r := run host "in".toList "out".toList ["--inputFile".toList, "a.kit".toList] tree
    r.conclusion = .complaint ∧ ∀ place, tree.SameFileAt r.tree place := by
  intro host tree r
  have hcomplaint : r.conclusion = .complaint := by decide +kernel
  have hfail : r.conclusion ≠ .success := by
    rw [hcomplaint]
    simp
  rcases failed_run_leaves host _ _ _ tree (Host.preparesOnly_standard _ _ _) hfail with
    hsame | ⟨_, _, _, text, _, _, _, _, _, hno, _⟩
  · exact ⟨hcomplaint, hsame⟩
  · exact absurd rfl (hno (.ofEncoding .utf8) (Encoding.utf8Bytes text) rfl)

/-- A former output is lost if the encoding of the settings lacks a character of the new one. -/
theorem failed_run_empties_output :
    let host : Host := .standard { encoding := "ascii".toList } "/w".toList
    let output : Place := ["w".toList, "out".toList, "a.html".toList]
    let tree : FileTree :=
      ((FileTree.empty.withFile ["w".toList, "in".toList, "a.kit".toList]
          (Encoding.utf8Bytes "<!--$n-->".toList)).withFile
        ["w".toList, "in".toList, "v.yaml".toList]
          (Encoding.utf8Bytes "n: \"\\xe9\"".toList)).withFile
        output (Encoding.utf8Bytes "old".toList)
    let r := run host "in".toList "out".toList ["--inputFile".toList, "a.kit".toList,
      "--variablesFile".toList, "v.yaml".toList] tree
    r.conclusion ≠ .success ∧
      tree.find? output = some (.file (Encoding.utf8Bytes "old".toList)) ∧
      r.tree.find? output = some (.file []) ∧ ¬ tree.SameFileAt r.tree output := by
  intro host output tree r
  have hold : tree.find? output = some (.file (Encoding.utf8Bytes "old".toList)) := by
    decide +kernel
  have hnew : r.tree.find? output = some (.file []) := by decide +kernel
  refine ⟨by decide +kernel, hold, hnew, fun hsame => ?_⟩
  rw [(hsame _).2 hold] at hnew
  revert hnew
  decide +kernel

end CommentMarkup.CommandLine
