/-
# Positions

A position names a place in a text the way an editor does: by a line and a column, both
counted from one.  Offsets are turned into positions for diagnostics only.
-/
import CommentMarkup.Text.Basic

namespace CommentMarkup

/-- A line and a column of a text.  Columns are integers because an offset outside the text
still has a column, measured from the line that the clipped offset falls on. -/
structure Position where
  /-- The number of the line. -/
  line : Int
  /-- The number of the character in its line. -/
  column : Int
deriving DecidableEq, Repr

namespace Position

/-- The part of a text before an offset.  A negative offset counts from the end of the text,
and an offset outside the text is clipped. -/
def textBefore (text : Text) (offset : Int) : Text :=
  if offset < 0 then text.take (text.length - offset.natAbs) else text.take offset.toNat

/-- The offset at which the last line of a text begins. -/
def lastLineStart (s : Text) : Nat :=
  s.length - (s.reverse.takeWhile (· ≠ '\n')).length

/-- The position of an offset: the line is the number of newlines before it plus one, the
column its distance from the beginning of that line plus one. -/
def ofOffset (text : Text) (offset : Int) : Position :=
  let before := textBefore text offset
  { line := before.count '\n' + 1
    column := offset - lastLineStart before + 1 }

end Position

end CommentMarkup
