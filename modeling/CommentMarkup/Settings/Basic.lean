/-
# Settings

What a site may choose: which files are templates, how partial templates are named, which
value clears a variable, and how files are encoded and named on output.
-/
import CommentMarkup.Path.Basic

namespace CommentMarkup

/-- The extension of a template, held as what follows its dot. -/
structure Extension where
  /-- What follows the dot. -/
  name : Text
deriving DecidableEq, Repr

namespace Extension

/-- An extension as it stands in a file name. -/
def text (e : Extension) : Text := '.' :: e.name

/-- Reads an extension, whose dot may be left out. -/
def ofText : Text → Extension
  | '.' :: name => ⟨name⟩
  | name => ⟨name⟩

end Extension

/-- The settings of a site. -/
structure Settings where
  /-- The extensions of templates, in the order in which they are tried. -/
  templateExtensions : List Extension :=
    [⟨"kit".toList⟩, ⟨"turf".toList⟩, ⟨"html".toList⟩, ⟨"htm".toList⟩]
  /-- What the name of a partial template begins with. -/
  partialMark : Text := "_".toList
  /-- The value that clears a variable. -/
  nilSentinel : Text := "nil".toList
  /-- The name of the encoding of all files. -/
  encoding : Text := "utf-8".toList
  /-- The suffix of the compiled file. -/
  outputSuffix : Text := ".html".toList
deriving DecidableEq, Repr

namespace Settings

/-- Whether a file is compiled when it is included, rather than copied. -/
def isTemplate (s : Settings) (p : Path) : Bool :=
  s.templateExtensions.any fun e => decide (e.text = Path.extension p)

/-- A name by itself and with every template extension. -/
def variants (s : Settings) (name : Text) : List Text :=
  name :: s.templateExtensions.map fun e => name ++ e.text

/-- The file names that a bare name may stand for, in the order in which they are tried:
the name and its variants, then those of the partial template. -/
def candidateNames (s : Settings) (name : Text) : List Text :=
  s.variants name ++ s.variants (s.partialMark ++ name)

end Settings

end CommentMarkup
