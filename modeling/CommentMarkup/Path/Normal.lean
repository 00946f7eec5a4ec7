/-
# Normal paths

A path is made normal by resolving its `..` components against the components before them,
without a look at any file.  Normal absolute paths identify documents: a file is included by
itself if its normal path occurs among those of the documents above it.
-/
import CommentMarkup.Path.Basic

namespace CommentMarkup.Path

/-- Goes on from a list of components, the last one first, by one more component.  Going up
from the root stays there; going up from the beginning of a relative path is kept. -/
def climb (anchored : Bool) (reversed : List Text) (c : Text) : List Text :=
  if c = above then
    match reversed with
    | [] => if anchored then [] else [above]
    | last :: before => if last = above then above :: reversed else before
  else c :: reversed

/-- The components that are left when every possible `..` has been resolved. -/
def reduce (anchored : Bool) (cs : List Text) : List Text :=
  (cs.foldl (climb anchored) []).reverse

/-- The normal form of a path. -/
def normalize (p : Path) : Path :=
  ofComponents (anchor p) (reduce (decide (anchor p ≠ .relative)) (components p))

/-- The normal absolute form of a path that is read from a current directory. -/
def absolute (cwd p : Path) : Path := normalize (join cwd p)

/-- The number of components that two lists have in common at their beginning. -/
def commonLength : List Text → List Text → Nat
  | a :: as, b :: bs => if a = b then commonLength as bs + 1 else 0
  | _, _ => 0

/-- A path as it is written from a start directory, both read from a current directory. -/
def relativeTo (cwd start p : Path) : Path :=
  let base := components (absolute cwd start)
  let goal := components (absolute cwd p)
  let shared := commonLength base goal
  ofComponents .relative (List.replicate (base.length - shared) above ++ goal.drop shared)

end CommentMarkup.Path
