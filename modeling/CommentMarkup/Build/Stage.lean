/-
# The stages of a build

A build has four stages.  The job is checked, which finds all paths and loads the initial
variables; the source is compiled; the compiled document is written; and the result is
reported.  Only writing changes the file tree.
-/
import CommentMarkup.Build.Job
import CommentMarkup.Build.Step
import CommentMarkup.Compile
import CommentMarkup.Variables

namespace CommentMarkup.Build

/-- Where a build takes place, and what it is given from outside. -/
structure Host where
  /-- The settings of the site. -/
  settings : Settings
  /-- The current directory. -/
  cwd : Path
  /-- The codecs that there are. -/
  codecs : Codecs
  /-- How variables files are loaded. -/
  loader : Yaml.Loader
  /-- What is done about the output directory before anything is built. -/
  prepare : Path → FileTree.Change

/-- The context of a compilation that takes place in a file tree. -/
def Host.context (host : Host) (tree : FileTree) : Context :=
  { store := tree.toStore host.cwd, settings := host.settings, cwd := host.cwd
    codecs := host.codecs }

/-- The variables of a file of a tree. -/
def Host.variables (host : Host) (tree : FileTree) (path : Path) :
    Except VariablesFault Scope :=
  Variables.load host.codecs host.loader host.settings.encoding tree host.cwd path

/-- What a chatty build begins with. -/
def title : Text :=
  ("\n  _              __\n | |_ _   _ _ __/ _|\n | __| | | | '__| |_\n"
    ++ " | |_| |_| | |  |  _|\n  \\__|\\__,_|_|  |_|\n\n"
    ++ "  Comment-directive markup compiler\n").toList

/-! ### Checking -/

/-- The complaint about variables that cannot be loaded.  It breaks off where a file that is
not YAML would have to be described. -/
def variablesComplaint (fault : VariablesFault) : Text :=
  "Error: Failed to load variables: ".toList
    ++ if fault = .malformed then [] else fault.message ++ ['\n']

/-- Loads the variables of a file. -/
def loadVariables (host : Host) (path : Path) : Step Scope := fun tree =>
  let ending := match host.variables tree path with
    | .ok scope => .done scope
    | .error (.unknownEncoding label) => .broken (.unknownEncoding label)
    | .error (.odd oddity) => .broken (.oddVariable oddity)
    | .error fault => .refused (variablesComplaint fault)
  ⟨ending, [.read path], tree⟩

/-- The initial variables of a job; without a file they stay what they are. -/
def initialOf (host : Host) (job : Job) (inputDir : Path) : Step Scope :=
  match job.variablesFile with
  | none | some [] => .done job.initial
  | some file => do
    let path := Path.within inputDir file
    let scope ← loadVariables host path
    Step.say 2 ("Loaded ".toList ++ decimal scope.entries.length ++ " variables from ".toList
      ++ path)
    return scope

/-- The root directory of a site: the one that is asked for, or the directory of the source. -/
def siteRootOf (host : Host) (job : Job) (source : Path) : Path :=
  match job.rootDir with
  | none | some [] => Path.parent source
  | some root => Path.located host.cwd root

/-- The file that a compiled document is written to: the output directory has it where the
input directory has the source, and its name has the suffix of the settings. -/
def outputFileOf (host : Host) (job : Job) : Step Path :=
  match Path.withSuffix host.settings.outputSuffix job.inputFile with
  | .error fault => .breakDown (.unnameable fault)
  | .ok file => do
    let outputDir ← Step.demand .noOutputDir job.outputDir
    return Path.within outputDir file

/-- Checks a job: the source must be a file, and the variables must load. -/
def check (host : Host) (job : Job) : Step Job := do
  Step.say 2 title
  Step.say 2 "Checking environment...".toList
  let inputDir ← Step.demand .noInputDir job.inputDir
  let source := Path.located host.cwd (Path.join inputDir job.inputFile)
  if ← Step.probe host.cwd source then
    Step.say 2 ("Input file: ".toList ++ source)
    let siteRoot := siteRootOf host job source
    Step.say 2 ("Include root: ".toList ++ siteRoot)
    let initial ← initialOf host job inputDir
    let outputFile ← outputFileOf host job
    Step.say 2 ("Output file: ".toList ++ outputFile)
    return { job with
      isChecked := true, source := source, siteRoot := siteRoot, initial := initial,
      outputFile := outputFile }
  else Step.refuse ("Error: Input file not found: ".toList ++ source ++ ['\n'])

/-! ### Compiling -/

/-- How a compilation ends for a build.  Problems of documents and missing files are
complained about. -/
def endingOf : Except Failure Text → Ending Text
  | .ok text => .done text
  | .error (.diagnosed d) =>
    .refused ("Compile error: ".toList ++ d.report.summary ++ ['\n'])
  | .error (.fault (.io fault)) =>
    .refused ("Error reading input file: ".toList ++ fault.message ++ ['\n'])
  | .error (.fault (.undecodable fault)) => .broken (.fault (.undecodable fault))
  | .error (.unknownEncoding label) => .broken (.unknownEncoding label)
  | .error (.brokenCodec message) => .broken (.brokenCodec message)
  | .error .tooDeep => .broken .tooDeep

/-- The compiled document of a job. -/
def compiled (host : Host) (job : Job) : Step Text := fun tree =>
  let run := Compile.file (host.context tree) job.source (some job.initial.entries)
    (some job.siteRoot) none
  ⟨endingOf run.outcome, run.events, tree⟩

/-- Compiles the source of a job. -/
def compile (host : Host) (job : Job) : Step Job := do
  Step.say 1 ("Compiling ".toList ++ Path.lastName job.source ++ "...".toList)
  let text ← compiled host job
  Step.say 2 ("Compiled ".toList ++ decimal text.length ++ " characters".toList)
  return { job with text := some text }

/-! ### Writing -/

/-- The bytes that a text is written as in the encoding of the settings. -/
def encode (host : Host) (text : Text) : Step Bytes :=
  match host.codecs host.settings.encoding with
  | none => .breakDown (.unknownEncoding host.settings.encoding)
  | some codec =>
    match codec.write text with
    | .ok bytes => .done bytes
    | .error (.refused fault) => .breakDown (.unencodable fault)
    | .error (.broken message) => .breakDown (.brokenCodec message)

/-- Writes the compiled document of a job, after the directories on the way to it have been
made.  The file is emptied before the document is encoded. -/
def write (host : Host) (job : Job) : Step Job :=
  match job.text with
  | none => .refuse "Error: No compiled output available\n".toList
  | some text => do
    Step.change (FileTree.makeDirectories host.cwd (Path.parent job.outputFile))
    Step.change (FileTree.write host.cwd job.outputFile [])
    let bytes ← encode host text
    Step.change (FileTree.write host.cwd job.outputFile bytes)
    Step.say 2 ("Wrote ".toList ++ job.outputFile)
    return job

/-! ### Reporting -/

/-- Reports the result of a job. -/
def report (job : Job) : Step Job := do
  Step.say 1 "\n✓ Compilation successful!".toList
  Step.say 1 ("  Input:  ".toList ++ job.source)
  Step.say 1 ("  Output: ".toList ++ job.outputFile)
  return job

/-! ### The whole build -/

/-- Stages in order, each working on the job that the one before it leaves. -/
def inOrder : List (Job → Step Job) → Job → Step Job
  | [], job => .done job
  | stage :: rest, job => do
    let job ← stage job
    inOrder rest job

/-- All stages. -/
def run (host : Host) : Job → Step Job :=
  inOrder [check host, compile host, write host, report]

end CommentMarkup.Build
