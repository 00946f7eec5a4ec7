/-
# Suffixes

The suffix of a file name tells its kind.  The compiled document is named after its source,
with another suffix.
-/
import CommentMarkup.Path.Tidy
import CommentMarkup.Text.Quoted

namespace CommentMarkup.Path

/-- The end of a file name that changes with its kind: the last dot and what follows, unless
the dot is its first or last character. -/
def suffix (name : Text) : Text :=
  let after := (name.reverse.takeWhile (· ≠ '.')).reverse
  if after ≠ [] ∧ after.length + 1 < name.length then '.' :: after else []

/-- Why a path cannot be given a suffix. -/
inductive SuffixFault where
  /-- The text is no suffix. -/
  | invalid (suffix : Text)
  /-- The path has no name to which a suffix could belong. -/
  | nameless (path : Path)
deriving DecidableEq, Repr

/-- The wording of a refused suffix. -/
def SuffixFault.message : SuffixFault → Text
  | .invalid s => "Invalid suffix ".toList ++ Text.quoted s
  | .nameless p => "PosixPath(".toList ++ Text.quoted p ++ ") has an empty name".toList

/-- Whether a text can be a suffix: nothing, or a dot and a name without separators. -/
def isSuffix (s : Text) : Bool :=
  s = [] || (s.head? = some '.' && s ≠ ['.'] && !s.contains '/')

/-- The tidy form of a path with another suffix. -/
def withSuffix (s : Text) (p : Path) : Except SuffixFault Path :=
  if isSuffix s = false then .error (.invalid s)
  else if lastName p = [] then .error (.nameless (tidy p))
  else
    let name := lastName p
    let stem := name.take (name.length - (suffix name).length)
    .ok (ofComponents (anchor p) ((components p).dropLast ++ [stem ++ s]))

end CommentMarkup.Path
