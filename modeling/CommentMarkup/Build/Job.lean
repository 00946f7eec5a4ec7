/-
# Jobs

A job is one document to be compiled from an input directory into an output directory,
together with all that the stages of the build have found out about it so far.
-/
import CommentMarkup.Scope

namespace CommentMarkup

/-- What is to be built, and how far that has come. -/
structure Job where
  /-- The directory with the sources. -/
  inputDir : Option Path := none
  /-- The directory for the compiled document. -/
  outputDir : Option Path := none
  /-- The verbosity at which the build is followed. -/
  verbosity : Int := 1
  /-- The source, read from the input directory. -/
  inputFile : Path := []
  /-- The file of initial variables, read from the input directory. -/
  variablesFile : Option Path := none
  /-- The root directory of the site, read from the current directory. -/
  rootDir : Option Path := none
  /-- Whether the job has been checked. -/
  isChecked : Bool := false
  /-- The absolute path of the source. -/
  source : Path := ['/']
  /-- The absolute path of the root directory. -/
  siteRoot : Path := ['/']
  /-- The initial variables. -/
  initial : Scope := Scope.empty
  /-- The file that the compiled document is written to. -/
  outputFile : Path := ['/']
  /-- The compiled document. -/
  text : Option Text := none
deriving DecidableEq, Repr

end CommentMarkup
