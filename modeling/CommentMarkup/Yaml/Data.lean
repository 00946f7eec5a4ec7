/-
# What is loaded from YAML

A variables file is loaded as a whole before variables are made of it.  How it is loaded is a
parameter of whatever needs it (`Loader`).  What is loaded is described here as far as variables go:
a mapping has keys and values in order, each with its written form, and all lists and mappings
inside of it are alike.
-/
import CommentMarkup.Text.Encoding

namespace CommentMarkup.Yaml

/-- Why a value cannot be had, other than that the file is no good YAML. -/
inductive Oddity where
  /-- The code of an escape takes more than 31 bits. -/
  | hugeCode
  /-- A number in base sixty has more places than a floating-point number can span. -/
  | tooManyPlaces
  /-- An empty text is said to be a number. -/
  | emptyNumber
  /-- A text is said to be a truth value and is none. -/
  | noTruthValue (text : Text)
  /-- A text is said to be a date and is none. -/
  | noMoment
  /-- An escape asks for half of a surrogate pair, which no text can hold. -/
  | halfPair
  /-- A tag asks for a kind that the reader does not have. -/
  | unreadKind
  /-- Anything else, in words of the loader. -/
  | inWords (message : Text)
deriving DecidableEq, Repr

/-- The wording of an oddity. -/
def Oddity.message : Oddity → Text
  | hugeCode => "the code of an escape is too large".toList
  | tooManyPlaces => "a number in base sixty has too many places".toList
  | emptyNumber => "a number has no digits".toList
  | noTruthValue text => text ++ " is not a truth value".toList
  | noMoment => "a date is not spelled like one".toList
  | halfPair => "an escape stands for half of a surrogate pair".toList
  | unreadKind => "a tag asks for a kind that cannot be read".toList
  | inWords message => message

/-- Why a variables file cannot be read. -/
inductive Fault where
  /-- It is not well formed. -/
  | malformed
  /-- It ends inside quotes. -/
  | cutOff
  /-- A value is out of the range of its kind; the text says how. -/
  | invalid (message : Text)
  /-- A value cannot be had at all. -/
  | odd (oddity : Oddity)
  /-- The bytes of the file are not text from some point on. -/
  | undecodable (fault : DecodeFault)
deriving DecidableEq, Repr

/-- A result of reading. -/
abbrev Reading := Except Fault

/-- What is loaded for a value of a mapping. -/
inductive Value where
  /-- Null. -/
  | null
  /-- A list or a mapping. -/
  | collection
  /-- Anything else: its written form, or why it has none. -/
  | scalar (written : Reading Text)

/-- What is loaded for a file. -/
inductive Data where
  /-- Null, or nothing at all. -/
  | null
  /-- A mapping: the written forms of its keys, or why they have none, and their values. -/
  | mapping (entries : List (Reading Text × Value))
  /-- Anything else. -/
  | other

/-- A way to load the bytes of a file, which is in the encoding of a name. -/
abbrev Loader := Text → Bytes → Reading Data

end CommentMarkup.Yaml
