/-
# Blank characters

The 29 characters that count as white space wherever the library trims or splits a text:
the Unicode property `White_Space` together with the four information separators.  Note
that only a line feed ends a line; the other line separators are merely blank.
-/
import CommentMarkup.Text.Basic

namespace CommentMarkup

/-- The code points of the blank characters, as closed ranges in increasing order. -/
def blankRanges : List (Nat × Nat) :=
  [(0x09, 0x0D), (0x1C, 0x20), (0x85, 0x85), (0xA0, 0xA0), (0x1680, 0x1680), (0x2000, 0x200A),
    (0x2028, 0x2029), (0x202F, 0x202F), (0x205F, 0x205F), (0x3000, 0x3000)]

/-- Whether a character is blank. -/
def isBlank (c : Char) : Bool :=
  blankRanges.any fun r => decide (r.1 ≤ c.toNat) && decide (c.toNat ≤ r.2)

namespace Text

/-- Whether a text is empty or made of blank characters only. -/
def allBlank (s : Text) : Bool := s.all isBlank

/-- A text without the blanks it begins with. -/
def trimLeft (s : Text) : Text := s.dropWhile isBlank

/-- A text without the blanks it ends with. -/
def trimRight (s : Text) : Text := (s.reverse.dropWhile isBlank).reverse

/-- A text without the blanks around it. -/
def trim (s : Text) : Text := trimRight (trimLeft s)

/-- The first word of a text: its first run of characters that are not blank. -/
def firstWord (s : Text) : Text := (trimLeft s).takeWhile fun c => !isBlank c

/-- What follows the first word of a text and the blanks after that word. -/
def afterFirstWord (s : Text) : Text := trimLeft ((trimLeft s).dropWhile fun c => !isBlank c)

end Text

end CommentMarkup
