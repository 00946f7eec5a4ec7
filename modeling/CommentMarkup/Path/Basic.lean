/-
# Paths

A path is a text whose components are separated by `/`.  This file has the operations that
only look at the text: joining, cutting off the last component, and the extension.
-/
import CommentMarkup.Text.Basic

namespace CommentMarkup

/-- A path is a text. -/
abbrev Path := Text

namespace Path

/-- Whether a path begins at the root. -/
def isAbsolute (p : Path) : Bool := p.head? = some '/'

/-- A path read from a base directory.  An absolute path does not depend on the base. -/
def join (base p : Path) : Path :=
  if isAbsolute p then p
  else if base = [] ∨ base.getLast? = some '/' then base ++ p
  else base ++ '/' :: p

/-- The last component: what follows the last separator. -/
def fileName (p : Path) : Text := (p.reverse.takeWhile (· ≠ '/')).reverse

/-- What stands before the last component, without the separators at its end unless there is
nothing else. -/
def directory (p : Path) : Path :=
  let upTo := (p.reverse.dropWhile (· ≠ '/')).reverse
  let trimmed := (upTo.reverse.dropWhile (· = '/')).reverse
  if trimmed = [] then upTo else trimmed

/-- The extension of the last component: its last dot and what follows.  Dots that the
component begins with do not start an extension. -/
def extension (p : Path) : Text :=
  let name := (fileName p).reverse
  let stem := (name.dropWhile (· ≠ '.')).drop 1
  if stem.any (· ≠ '.') then '.' :: (name.takeWhile (· ≠ '.')).reverse else []

/-- How a path begins: at the current directory, at the root, or at the root written with
exactly two separators, which is kept apart. -/
inductive Anchor where
  /-- No separator at the beginning. -/
  | relative
  /-- One separator, or three and more. -/
  | root
  /-- Exactly two separators. -/
  | doubleRoot
deriving DecidableEq, Repr

/-- The anchor of a path. -/
def anchor : Path → Anchor
  | '/' :: '/' :: '/' :: _ => .root
  | '/' :: '/' :: _ => .doubleRoot
  | '/' :: _ => .root
  | _ => .relative

/-- The text of an anchor. -/
def Anchor.text : Anchor → Text
  | .relative => []
  | .root => ['/']
  | .doubleRoot => ['/', '/']

/-- The component that stands for the directory itself. -/
def here : Text := ['.']

/-- The component that stands for the directory above. -/
def above : Text := ['.', '.']

/-- The components of a path, without the empty ones and those that stay in place. -/
def components (p : Path) : List Text :=
  (p.splitOn '/').filter fun c => decide (c ≠ []) && decide (c ≠ here)

/-- The path with a given anchor and given components. -/
def ofComponents (a : Anchor) (cs : List Text) : Path :=
  let p := a.text ++ List.intercalate ['/'] cs
  if p = [] then here else p

end Path

end CommentMarkup
