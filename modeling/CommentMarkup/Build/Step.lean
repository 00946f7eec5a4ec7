/-
# Steps of a build

A step of a build works on a file tree and says what it does.  It ends in one of three ways:
with a result, with a complaint to the user, or with a breakdown that no complaint was
foreseen for.  The tree and the events are there in all three cases, since what a step has
done is not undone when it fails.
-/
import CommentMarkup.FileTree
import CommentMarkup.Diagnostic
import CommentMarkup.Log
import CommentMarkup.Path.Suffix
import CommentMarkup.Yaml.Data

namespace CommentMarkup.Build

/-- What ends a build without a complaint. -/
inductive Breakdown where
  /-- The file system refuses an access, or bytes are not text. -/
  | fault (fault : Fault)
  /-- The compiled document has characters that the encoding lacks. -/
  | unencodable (fault : EncodeFault)
  /-- The settings name an encoding that does not exist. -/
  | unknownEncoding (label : Text)
  /-- The codec of the settings fails without pointing at anything. -/
  | brokenCodec (message : Text)
  /-- A value of the variables file cannot be had. -/
  | oddVariable (oddity : Yaml.Oddity)
  /-- The compiled document cannot be named after its source. -/
  | unnameable (fault : Path.SuffixFault)
  /-- The job has no input directory. -/
  | noInputDir
  /-- The job has no output directory. -/
  | noOutputDir
  /-- Documents include one another beyond every bound. -/
  | tooDeep
deriving DecidableEq, Repr

/-- The wording of a breakdown. -/
def Breakdown.message : Breakdown → Text
  | .fault f => f.message
  | .unencodable f => f.message
  | .unknownEncoding label => Encoding.unknownMessage label
  | .brokenCodec message => message
  | .oddVariable oddity => oddity.message
  | .unnameable f => f.message
  | .noInputDir => "there is no input directory".toList
  | .noOutputDir => "there is no output directory".toList
  | .tooDeep => Failure.summary .tooDeep

/-- How a step ends. -/
inductive Ending (α : Type) where
  /-- It yields a result. -/
  | done (result : α)
  /-- It stops the build with a complaint. -/
  | refused (complaint : Text)
  /-- It breaks down. -/
  | broken (cause : Breakdown)

/-- What a step comes to. -/
structure Progress (α : Type) where
  /-- How the step ends. -/
  ending : Ending α
  /-- What has happened, in order. -/
  events : List Event
  /-- The file tree after the step. -/
  tree : FileTree

/-- A step works on a file tree. -/
def Step (α : Type) : Type := FileTree → Progress α

namespace Step

/-- The step that does nothing. -/
def done (result : α) : Step α := fun tree => ⟨.done result, [], tree⟩

/-- The step that stops the build with a complaint. -/
def refuse (complaint : Text) : Step α := fun tree => ⟨.refused complaint, [], tree⟩

/-- The step that breaks down. -/
def breakDown (cause : Breakdown) : Step α := fun tree => ⟨.broken cause, [], tree⟩

/-- The step that only says something. -/
def say (level : Int) (message : Text) : Step Unit := fun tree =>
  ⟨.done (), [.said ⟨level, message⟩], tree⟩

/-- One step after another: the second one is not begun if the first one does not end with a
result. -/
def andThen (first : Step α) (second : α → Step β) : Step β := fun tree =>
  let p := first tree
  match p.ending with
  | .done a =>
    let q := second a p.tree
    ⟨q.ending, p.events ++ q.events, q.tree⟩
  | .refused complaint => ⟨.refused complaint, p.events, p.tree⟩
  | .broken cause => ⟨.broken cause, p.events, p.tree⟩

instance : Monad Step where
  pure := done
  bind := andThen

/-- A result that may be missing. -/
def demand (cause : Breakdown) : Option α → Step α
  | some a => done a
  | none => breakDown cause

/-- Asks whether there is a file at a path. -/
def probe (cwd path : Path) : Step Bool := fun tree =>
  match tree.isFile cwd path with
  | .ok found => ⟨.done found, [.probed path found], tree⟩
  | .error fault => ⟨.broken (.fault (.io fault)), [.refused path], tree⟩

/-- Changes the file tree. -/
def change (c : FileTree.Change) : Step Unit := fun tree =>
  match c tree with
  | (.ok (), after) => ⟨.done (), [], after⟩
  | (.error fault, after) => ⟨.broken (.fault (.io fault)), [], after⟩

end Step

end CommentMarkup.Build
