/-
# The standard host

What a build is given from outside: the codecs that are built in, the YAML reader, and an output
directory that is made, together with all directories above it, before anything is built.
-/
import CommentMarkup.CommandLine.Report
import CommentMarkup.Yaml.Loader

namespace CommentMarkup.Build.Host

/-- The host of the program, with some settings in some directory. -/
def standard (settings : Settings) (cwd : Path) : Host where
  settings := settings
  cwd := cwd
  codecs := Codec.builtIn
  loader := Yaml.load
  prepare := FileTree.makeDirectories cwd

end CommentMarkup.Build.Host
