/-
# Tidy paths

The command line shows and uses paths in a tidy form: without repeated separators and `.`
components, but with every `..` component kept, since going up through a directory asks the
file system whether that directory exists.
-/
import CommentMarkup.Path.Normal

namespace CommentMarkup.Path

/-- The tidy form of a path. -/
def tidy (p : Path) : Path := ofComponents (anchor p) (components p)

/-- The directory that holds a path: the tidy path without its last component. -/
def parent (p : Path) : Path := ofComponents (anchor p) (components p).dropLast

/-- The last component of the tidy form, which is empty for a bare anchor. -/
def lastName (p : Path) : Text := (components p).getLast?.getD []

/-- The tidy form of a path read from a base directory. -/
def within (base p : Path) : Path := tidy (join base p)

/-- The absolute path of a file when no directory is a link: the normal absolute path, with
its root written once. -/
def located (cwd p : Path) : Path :=
  ofComponents .root (components (absolute cwd p))

end CommentMarkup.Path
