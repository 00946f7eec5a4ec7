/-
# Command line

A command line names an input directory, an output directory, and what to do between them.
Running it on a file tree gives a report: the exit code, what is printed and logged, and the
file tree afterwards.
-/
import CommentMarkup.CommandLine.Arguments
import CommentMarkup.Build.Stage

namespace CommentMarkup.CommandLine

/-- How a run of the program ends. -/
inductive Conclusion where
  /-- With the exit code of a success. -/
  | success
  /-- With the exit code of a complaint. -/
  | complaint
  /-- With the exit code for arguments that make no sense. -/
  | misuse
  /-- With a breakdown. -/
  | broken (cause : Build.Breakdown)
deriving DecidableEq, Repr

/-- The exit code of a conclusion; a breakdown has none of its own. -/
def Conclusion.exitCode? : Conclusion → Option Nat
  | success => some 0
  | complaint => some 1
  | misuse => some 2
  | broken _ => none

/-- What a run of the program comes to. -/
structure Report where
  /-- How the run ends. -/
  conclusion : Conclusion
  /-- What is printed on the standard output. -/
  output : Text := []
  /-- What is printed on the standard error output, apart from the log. -/
  complaint : Text := []
  /-- What happens, in order. -/
  events : List Event := []
  /-- The messages of the log that are shown. -/
  messages : List Text := []
  /-- The file tree afterwards. -/
  tree : FileTree

/-- The line that shows the version. -/
def versionLine : Text := "turf 1.0.0\n".toList

/-- How the program is used. -/
def usage : Text :=
  ("usage: turf [-h] --inputFile INPUTFILE [--variablesFile VARIABLESFILE]\n"
    ++ "            [--rootDir ROOTDIR] [-v] [-V]\n\n"
    ++ "turf - compile documents with comment-embedded variables and includes\n\n"
    ++ "options:\n"
    ++ "  -h, --help            show this help message and exit\n"
    ++ "  --inputFile INPUTFILE\n"
    ++ "                        Input document (relative to inputdir) (default: None)\n"
    ++ "  --variablesFile VARIABLESFILE\n"
    ++ "                        YAML mapping of initial variable values (default:\n"
    ++ "                        None)\n"
    ++ "  --rootDir ROOTDIR     Root directory for '/'-prefixed includes. Defaults to\n"
    ++ "                        the input file's directory (default: None)\n"
    ++ "  -v, --verbosity       Increase output verbosity (can be repeated: -v, -vv,\n"
    ++ "                        -vvv) (default: 1)\n"
    ++ "  -V, --version         show program's version number and exit\n").toList

/-- The job of a request. -/
def jobOf (inputDir outputDir : Path) (inputFile : Path) (c : Choices) : Job :=
  { inputDir := some (Path.tidy inputDir), outputDir := some (Path.tidy outputDir),
    verbosity := c.verbosity, inputFile := inputFile, variablesFile := c.variablesFile,
    rootDir := c.rootDir }

/-- The report of a build that has ended. -/
def reportOf (verbosity : Int) (p : Build.Progress Job) : Report :=
  let messages := Log.shown (some verbosity) (Event.entries p.events)
  match p.ending with
  | .done _ =>
    { conclusion := .success, events := p.events, messages := messages, tree := p.tree }
  | .refused complaint =>
    { conclusion := .complaint, complaint := complaint, events := p.events,
      messages := messages, tree := p.tree }
  | .broken cause =>
    { conclusion := .broken cause, events := p.events, messages := messages, tree := p.tree }

/-- Has the output directory prepared and builds a job. -/
def build (host : Build.Host) (job : Job) (outputDir : Path) : Build.Step Job := do
  Build.Step.change (host.prepare (Path.tidy outputDir))
  Build.run host job

/-- Runs the program on a file tree. -/
def run (host : Build.Host) (inputDir outputDir : Path) (arguments : List Text)
    (tree : FileTree) : Report :=
  match Request.ofArguments arguments with
  | .misuse => { conclusion := .misuse, tree := tree }
  | .version => { conclusion := .success, output := versionLine, tree := tree }
  | .help => { conclusion := .success, output := usage, tree := tree }
  | .build inputFile choices =>
    let job := jobOf inputDir outputDir inputFile choices
    reportOf job.verbosity (build host job outputDir tree)

end CommentMarkup.CommandLine
