/-
# Quoted texts

Messages of the file system show paths between quotation marks.  Single quotes are used
unless the text holds some and no double quotes; what would be misread or not be seen is
escaped.
-/
import CommentMarkup.Text.Encoding
import CommentMarkup.Text.Printable

namespace CommentMarkup.Text

/-- The quotation mark for a text. -/
def quoteFor (s : Text) : Char := if s.contains '\'' && !s.contains '"' then '"' else '\''

/-- A character as it stands between given quotation marks. -/
def quotedChar (quote c : Char) : Text :=
  if c = quote ∨ c = '\\' then ['\\', c]
  else if c = '\t' then ['\\', 't']
  else if c = '\n' then ['\\', 'n']
  else if c = '\r' then ['\\', 'r']
  else if isPrintable c then [c]
  else escapedCodePoint c

/-- A text between quotation marks. -/
def quoted (s : Text) : Text :=
  let quote := quoteFor s
  quote :: s.flatMap (quotedChar quote) ++ [quote]

end CommentMarkup.Text
