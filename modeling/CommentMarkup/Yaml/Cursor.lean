/-
# Reading positions

Reading the variables file depends on columns as much as on characters, so the reader moves a
cursor, which knows its line and its column.  Carriage returns have been replaced by line
feeds before.
-/
import CommentMarkup.Yaml.Data

namespace CommentMarkup.Yaml

/-- Whether a character ends a line. -/
def isBreak (c : Char) : Bool := c = '\n' || c = '\x85' || c = '\u2028' || c = '\u2029'

/-- Whether a character ends a line or is a space or a tab. -/
def isGap (c : Char) : Bool := c = ' ' || c = '\t' || isBreak c

/-- The mark that may stand at the beginning of a file and takes no column. -/
def byteOrderMark : Char := '\uFEFF'

/-- A position in a text. -/
structure Cursor where
  /-- The text from here on. -/
  rest : Text
  /-- The number of characters before. -/
  index : Nat
  /-- The number of lines before. -/
  line : Nat
  /-- The number of characters of this line before. -/
  column : Nat

namespace Cursor

/-- The beginning of a text. -/
def ofText (s : Text) : Cursor := ⟨s, 0, 0, 0⟩

/-- The next character. -/
def peek (c : Cursor) : Option Char := c.rest.head?

/-- The character at a distance. -/
def peekAt (c : Cursor) (n : Nat) : Option Char := c.rest[n]?

/-- One character further. -/
def next (c : Cursor) : Cursor :=
  match c.rest with
  | [] => c
  | ch :: rest =>
    if isBreak ch then ⟨rest, c.index + 1, c.line + 1, 0⟩
    else ⟨rest, c.index + 1, c.line, if ch = byteOrderMark then c.column else c.column + 1⟩

/-- A number of characters further. -/
def forward : Nat → Cursor → Cursor
  | 0, c => c
  | n + 1, c => forward n c.next

/-- The characters from here on that satisfy a condition, and the position after them. -/
def takeWhile (p : Char → Bool) (c : Cursor) : Text × Cursor :=
  let taken := c.rest.takeWhile p
  (taken, c.forward taken.length)

/-- The position after the characters that satisfy a condition. -/
def skipWhile (p : Char → Bool) (c : Cursor) : Cursor := (c.takeWhile p).2

/-- The position after spaces. -/
def skipSpaces (c : Cursor) : Cursor := c.skipWhile (· = ' ')

/-- The position at the end of a comment that may begin here. -/
def skipComment (c : Cursor) : Cursor :=
  if c.peek = some '#' then c.skipWhile fun ch => !isBreak ch else c

/-- The end of line that stands here, and the position after it.  A next-line character reads
as a line feed. -/
def lineBreak? (c : Cursor) : Option (Char × Cursor) :=
  match c.peek with
  | some ch => if isBreak ch then some (if ch = '\x85' then '\n' else ch, c.next) else none
  | none => none

/-- Whether the character at a distance is a gap or the end of the text. -/
def endsAt (c : Cursor) (n : Nat) : Bool := (c.peekAt n).all isGap

/-- Whether a document marker, made of three equal characters, stands here. -/
def hasMarker (c : Cursor) (mark : Char) : Bool :=
  decide (c.rest.take 3 = [mark, mark, mark]) && c.endsAt 3

/-- Whether either document marker stands here. -/
def hasAnyMarker (c : Cursor) : Bool := c.hasMarker '-' || c.hasMarker '.'

end Cursor

end CommentMarkup.Yaml
