/-
# Kinds

The kind of a plain scalar shows in its spelling: null, a truth value, a number, a date, or
else a text.  A tag gives the kind instead.  Two spellings are not for values but for keys with
a meaning of their own.
-/
import CommentMarkup.Yaml.Moment

namespace CommentMarkup.Yaml

/-- What a node is said to be, by its tag or by its spelling. -/
inductive Kind where
  /-- Null. -/
  | null
  /-- A truth value. -/
  | truth
  /-- An integer. -/
  | integer
  /-- A floating-point number. -/
  | floating
  /-- A date, or a date with a time. -/
  | moment
  /-- A text. -/
  | text
  /-- A list. -/
  | list
  /-- A mapping. -/
  | mapping
  /-- The key under which a mapping takes over the entries of others. -/
  | merge
  /-- The key under which a mapping has the value that it stands for as a scalar. -/
  | standIn
  /-- A kind that is known, but not read: bytes, a set, or one of the ordered mappings. -/
  | unread
  /-- Something that no variable can be. -/
  | unknown
deriving DecidableEq, Repr

namespace Kind

open Number (splitSign)

/-- What a tag with the handle of two exclamation marks begins with. -/
def standardTag : Text := "tag:yaml.org,2002:".toList

/-- The names of the kinds in tags. -/
def tagNames : List (Text × Kind) :=
  [("null".toList, null), ("bool".toList, truth), ("int".toList, integer),
    ("float".toList, floating), ("timestamp".toList, moment), ("str".toList, text),
    ("seq".toList, list), ("map".toList, mapping), ("merge".toList, merge),
    ("value".toList, standIn), ("binary".toList, unread), ("set".toList, unread),
    ("omap".toList, unread), ("pairs".toList, unread)]

/-- The kind that a tag gives. -/
def ofTag (tag : Text) : Kind :=
  ((Text.after? standardTag tag).bind fun name => tagNames.lookup name).getD unknown

/-! ### Spellings -/

/-- The spellings of null. -/
def nullSpellings : List Text := [[], "~".toList, "null".toList, "Null".toList, "NULL".toList]

/-- The truth values by their spellings in lower case. -/
def truthValues : List (Text × Bool) :=
  [("yes".toList, true), ("no".toList, false), ("true".toList, true), ("false".toList, false),
    ("on".toList, true), ("off".toList, false)]

/-- Whether a text is one of the spellings of a truth value: all letters are small, or all are
large, or the first one is large. -/
def isTruthSpelling (s : Text) : Bool :=
  truthValues.any fun v =>
    s = v.1 || s = v.1.map Char.toUpper
      || s = (v.1.take 1).map Char.toUpper ++ v.1.drop 1

/-- Whether a character is a decimal digit or an underscore. -/
def isSpacedDigit (c : Char) : Bool := c.isDigit || c = '_'

/-- Whether a text is a digit followed by digits and underscores. -/
def isSpacedNumber : Text → Bool
  | c :: rest => c.isDigit && rest.all isSpacedDigit
  | [] => false

/-- Whether a text is one of the places after the first in base sixty. -/
def isSixtieth : Text → Bool
  | [a] => a.isDigit
  | [a, b] => '0' ≤ a && a ≤ '5' && b.isDigit
  | _ => false

/-- Whether a text is spelled like an integer. -/
def isIntegerSpelling (s : Text) : Bool :=
  match (splitSign s).2 with
  | ['0'] => true
  | '0' :: 'b' :: rest => rest ≠ [] && rest.all fun d => d = '0' || d = '1' || d = '_'
  | '0' :: 'x' :: rest =>
    rest ≠ [] && rest.all fun d => d = '_' || (Text.digitValue? d).any fun v => decide (v < 16)
  | '0' :: rest => rest.all fun d => ('0' ≤ d && d ≤ '7') || d = '_'
  | digits =>
    match digits.splitOn ':' with
    | whole :: places => isSpacedNumber whole && places.all isSixtieth
    | [] => false

/-- Whether a text can be the exponent at the end of a floating-point number, which may be
missing.  It must have a sign. -/
def isExponent : Text → Bool
  | [] => true
  | e :: sign :: digits =>
    (e = 'e' || e = 'E') && (sign = '+' || sign = '-') && digits ≠ [] && digits.all Char.isDigit
  | _ => false

/-- The spellings of infinity without a sign. -/
def infinitySpellings : List Text := [".inf".toList, ".Inf".toList, ".INF".toList]

/-- The spellings of the number that is not one. -/
def nanSpellings : List Text := [".nan".toList, ".NaN".toList, ".NAN".toList]

/-- Whether a text is spelled like a floating-point number with digits.  There must be a point,
and a digit before it; without a sign, the digit may also follow the point. -/
def isPointed (s : Text) : Bool :=
  let (_, unsigned) := splitSign s
  let whole := unsigned.takeWhile isSpacedDigit
  match unsigned.dropWhile isSpacedDigit with
  | '.' :: rest =>
    let fraction := rest.takeWhile isSpacedDigit
    (isSpacedNumber whole || (whole = [] && s = unsigned && isSpacedNumber fraction))
      && isExponent (rest.dropWhile isSpacedDigit)
  | ':' :: rest =>
    match rest.dropWhile (· ≠ '.') with
    | '.' :: fraction =>
      isSpacedNumber whole && ((rest.takeWhile (· ≠ '.')).splitOn ':').all isSixtieth
        && fraction.all isSpacedDigit
    | _ => false
  | _ => false

/-- Whether a text is spelled like a floating-point number. -/
def isFloatingSpelling (s : Text) : Bool :=
  isPointed s || infinitySpellings.contains (splitSign s).2 || nanSpellings.contains s

/-- The kind of a text by its spelling. -/
def ofSpelling (s : Text) : Kind :=
  if nullSpellings.contains s then null
  else if isTruthSpelling s then truth
  else if isFloatingSpelling s then floating
  else if isIntegerSpelling s then integer
  else if Moment.isSpelled s then moment
  else if s = ['='] then standIn
  else if s = ['<', '<'] then merge
  else if s = ['!'] ∨ s = ['&'] ∨ s = ['*'] then unknown
  else text

/-- The kind of a scalar that shows in its spelling.  A line break at the end of a spelling is
let pass. -/
def ofPlain (s : Text) : Kind :=
  if s.head? = some '\n' then text
  else ofSpelling (if s.getLast? = some '\n' then s.dropLast else s)

/-- The kind of a scalar, given its tag and whether it is plain. -/
def ofScalar (tag : Option Text) (plain : Bool) (s : Text) : Kind :=
  match tag with
  | none => if plain then ofPlain s else text
  | some ['!'] => ofPlain s
  | some t => ofTag t

/-- The kind of a collection with a tag, given its kind without one. -/
def ofCollection (usual : Kind) : Option Text → Kind
  | none | some ['!'] => usual
  | some t => ofTag t

end Kind

end CommentMarkup.Yaml
