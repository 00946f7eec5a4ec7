/-
# Documents

A document is a text together with what is needed to compile it: the file it comes from, the
root directory of the site, and the documents that are being compiled further up.
-/
import CommentMarkup.Path.Normal

namespace CommentMarkup

/-- The unit of compilation. -/
structure Document where
  /-- The source text. -/
  text : Text
  /-- The file the text comes from; empty for a text without a file. -/
  file : Path
  /-- The directory against which includes that begin with `/` are read. -/
  rootDir : Path
  /-- The files of the documents further up, the outermost first. -/
  parents : List Path
deriving DecidableEq, Repr

namespace Document

/-- The directory against which all other includes are read. -/
def baseDir (d : Document) : Path := Path.directory d.file

/-- The files of the documents further up and of this one, as they are named. -/
def chain (d : Document) : List Path :=
  if d.file = [] then d.parents else d.parents ++ [d.file]

/-- The normal absolute paths of the documents further up and of this one. -/
def ancestors (cwd : Path) (d : Document) : List Path := d.chain.map (Path.absolute cwd)

/-- A path as diagnostics show it: relative to the root directory.  An empty path stays
empty. -/
def relative (cwd : Path) (d : Document) (p : Path) : Path :=
  if p = [] then [] else Path.relativeTo cwd (if d.rootDir = [] then Path.here else d.rootDir) p

end Document

/-- What a caller may choose for one compilation. -/
structure Options where
  /-- The initial variables. -/
  initial : List (Text × Text)
  /-- The file of the source; empty for a source without a file. -/
  file : Path
  /-- The root directory of the site. -/
  rootDir : Path
  /-- The files of the documents further up. -/
  parents : List Path
deriving DecidableEq, Repr

namespace Options

/-- Fills in what the caller leaves out: no variables, no file, no documents further up, and
the directory of the file as root. -/
def create (initial : Option (List (Text × Text))) (file rootDir : Option Path)
    (parents : Option (List Path)) : Options :=
  let file := file.getD []
  { initial := initial.getD []
    file := file
    rootDir := rootDir.getD (Path.directory file)
    parents := parents.getD [] }

/-- The document of a source text. -/
def document (o : Options) (source : Text) : Document :=
  { text := source, file := o.file, rootDir := o.rootDir, parents := o.parents }

end Options

end CommentMarkup
