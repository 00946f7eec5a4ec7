/-
# The program

The program is run on the part of the disk that it asks about.  It starts from a file tree
with the current directory alone; whatever it asks about is looked up on the disk and put
into the tree, and it is run again, until nothing is left to look up.  Only then are the
changes it has made to the tree made on the disk.

The arguments are the input directory, the output directory, and the flags.
-/
import CommentMarkup.CommandLine.Standard
import CommentMarkup.Settings.Environment

namespace CommentMarkup.Program

/-- What is at a path of the disk. -/
def lookUp (p : Path) : IO (Option FileTree.Entry) := do
  try
    let bytes ← IO.FS.readBinFile (String.ofList p)
    return some (.file bytes.toList)
  catch e =>
    match e with
    | .inappropriateType _ code _ => return if code = 21 then some .directory else none
    | _ => return none

/-- The paths that a report depends on. -/
def askedPaths (before : FileTree) (r : CommandLine.Report) : List Path :=
  r.events.filterMap Event.path? ++ (before.newFiles r.tree).map (·.1)
    ++ before.newDirectories r.tree

/-- The tree with what is on the disk at some paths. -/
def withDisk (cwd : Path) : FileTree → List Path → IO FileTree
  | tree, [] => return tree
  | tree, p :: rest => do
    match ← lookUp p with
    | some e => withDisk cwd (tree.reveal cwd p e) rest
    | none => withDisk cwd tree rest

/-- Runs the program until everything it asks about is known, and returns the tree it was run
on with the report. -/
partial def settle (cwd : Path) (run : FileTree → CommandLine.Report) (known : List Path)
    (tree : FileTree) : IO (FileTree × CommandLine.Report) := do
  let r := run tree
  match (askedPaths tree r).filter fun p => !known.contains p with
  | [] => return (tree, r)
  | asked => settle cwd run (known ++ asked) (← withDisk cwd tree asked)

/-- Makes the changes to a tree on the disk. -/
def commit (before after : FileTree) : IO Unit := do
  for p in before.newDirectories after do
    IO.FS.createDirAll (String.ofList p)
  for (p, bytes) in before.newFiles after do
    IO.FS.writeBinFile (String.ofList p) (ByteArray.mk bytes.toArray)

/-- Prints a report and gives the exit code. -/
def present (r : CommandLine.Report) : IO UInt32 := do
  for message in r.messages do
    IO.eprintln (String.ofList message)
  IO.print (String.ofList r.output)
  IO.eprint (String.ofList r.complaint)
  match r.conclusion with
  | .success => return 0
  | .complaint => return 1
  | .misuse =>
    IO.eprint (String.ofList CommandLine.usage)
    return 2
  | .broken cause =>
    IO.eprintln (String.ofList cause.message)
    return 1

/-- The variables of the environment that settings can stand in. -/
def environment : IO (List (Text × Text)) := do
  let mut found := []
  for name in Settings.names do
    let key := (String.ofList (Settings.environmentMark ++ name)).toUpper
    if let some value ← IO.getEnv key then
      found := (key.toList, value.toList) :: found
  return found

/-- Runs the program on a file tree.  Without the two directories it can only be asked about
itself. -/
def report (host : Build.Host) (arguments : List Text) (tree : FileTree) :
    CommandLine.Report :=
  match arguments.span fun a => a.head? ≠ some '-' with
  | ([inputDir, outputDir], flags) => CommandLine.run host inputDir outputDir flags tree
  | _ =>
    match CommandLine.Request.ofArguments arguments with
    | .build .. => { conclusion := .misuse, tree := tree }
    | _ => CommandLine.run host Path.here Path.here arguments tree

/-- Runs the program on the disk. -/
def run (arguments : List Text) : IO UInt32 := do
  let cwd := (toString (← IO.currentDir)).toList
  match Settings.load [] (← environment) with
  | .error _ =>
    IO.eprintln "The settings of the environment make no sense."
    return 1
  | .ok settings =>
    let (before, r) ← settle cwd (report (.standard settings cwd) arguments) []
      (FileTree.empty.withDirectory (Path.components cwd))
    commit before r.tree
    present r

end CommentMarkup.Program

/-- Compiles a document from the input directory into the output directory. -/
def main (arguments : List String) : IO UInt32 :=
  CommentMarkup.Program.run (arguments.map String.toList)
