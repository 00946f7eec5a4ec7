/-
# Numbers

What the text of a number stands for.  An integer may be written in base two, eight, ten or
sixteen, and in base sixty with colons between its places, of which the last may have a
fraction in a floating-point number.  Underscores between digits mean nothing.

The text need not look like a number, since it may only be said to be one; so everything that
can be wrong with it has its answer here.
-/
import CommentMarkup.Yaml.Cursor
import CommentMarkup.Decimal.Written
import CommentMarkup.Text.Blank
import CommentMarkup.Text.Digit
import CommentMarkup.Text.Quoted

namespace CommentMarkup.Yaml.Number

/-- A text without a sign at its beginning, and whether the sign is a minus. -/
def splitSign : Text → Bool × Text
  | '-' :: rest => (true, rest)
  | '+' :: rest => (false, rest)
  | s => (false, s)

/-- A text without underscores. -/
def dropUnderscores (s : Text) : Text := s.filter (· ≠ '_')

/-- Whether a character may stand around a number. -/
def isPadding (c : Char) : Bool :=
  [' ', '\t', '\n', '\x0b', '\x0c', '\r'].contains c || (decide (0x7F ≤ c.toNat) && isBlank c)

/-- A character of a number as a digit of the common script, if it is a digit of another
one.  The question mark stands for what cannot belong to a number. -/
def commonDigit (c : Char) : Char :=
  if c.toNat < 0x7F then c
  else match Text.decimalDigit? c with
    | some d => Char.ofNat ('0'.toNat + d)
    | none => '?'

/-- A number in common digits, without the blanks around it. -/
def common (s : Text) : Text :=
  (((s.dropWhile isPadding).reverse.dropWhile isPadding).reverse).map commonDigit

/-- The value of decimal digits. -/
def decimalValue (digits : Text) : Nat := (Text.number? 10 digits).getD 0

/-! ### Integers -/

/-- The letters of which one may stand after a zero at the beginning of a number in a base. -/
def baseLetters (base : Nat) : List Char :=
  if base = 2 then ['b', 'B'] else if base = 8 then ['o', 'O']
  else if base = 16 then ['x', 'X'] else []

/-- The digits of a number in a base, without what may stand before them. -/
def dropBase (base : Nat) : Text → Text
  | '0' :: letter :: rest =>
    if (baseLetters base).contains letter then rest else '0' :: letter :: rest
  | s => s

/-- The wording for a text that is no number in a base. -/
def notInBase (base : Nat) (s : Text) : Text :=
  "invalid literal for int() with base ".toList ++ decimal base ++ ": ".toList
    ++ (Text.quoted s).take 200

/-- The integer that a text stands for in a base. -/
def inBase (base : Nat) (s : Text) : Reading Int :=
  let (negative, rest) := splitSign (common s)
  let digits := dropBase base rest
  -- how many digits there are is looked at before what follows them
  let count := (digits.takeWhile Char.isDigit).length
  if base = 10 ∧ Decimal.longest < count then
    .error (.invalid (Decimal.tooLongToRead count))
  else
    match Text.number? base digits with
    | some n =>
      if digits = [] then .error (.invalid (notInBase base s))
      else .ok (if negative then -(n : Int) else n)
    | none => .error (.invalid (notInBase base s))

/-- An integer in base sixty, given its places. -/
def sixtieths (places : List Text) : Reading Int :=
  places.foldlM (fun n place => do return n * 60 + (← inBase 10 place)) 0

/-- The integer of a text without underscores and without its sign. -/
def unsignedInteger (s : Text) : Reading Int :=
  match s with
  | [] => .error (.odd .emptyNumber)
  | ['0'] => .ok 0
  | '0' :: 'b' :: rest => inBase 2 rest
  | '0' :: 'x' :: rest => inBase 16 rest
  | '0' :: _ => inBase 8 s
  | _ => if s.contains ':' then sixtieths (s.splitOn ':') else inBase 10 s

/-- The integer that a text stands for. -/
def integer (s : Text) : Reading Int := do
  let (negative, rest) := splitSign (dropUnderscores s)
  let n ← unsignedInteger rest
  return if negative then -n else n

/-! ### Floating-point numbers -/

/-- The exponent at the end of a number, which may be missing. -/
def exponent? : Text → Option Int
  | [] => some 0
  | e :: rest =>
    let (negative, digits) := splitSign rest
    if (e = 'e' || e = 'E') && digits ≠ [] && digits.all Char.isDigit then
      some (if negative then -(decimalValue digits : Int) else decimalValue digits)
    else none

/-- The nearest floating-point number to a decimal.  The order of magnitude settles decimals
that are too large or too small to be told from infinity or zero. -/
def nearest (digits : Nat) (scale : Int) : Float :=
  let magnitude := (decimal digits).length + scale
  if digits = 0 ∨ magnitude < -400 then 0
  else if 310 < magnitude then 1 / 0
  else if scale < 0 then Float.ofScientific digits true scale.natAbs
  else Float.ofScientific digits false scale.natAbs

/-- The number of a text with digits, a point among them and an exponent after them. -/
def pointed? (s : Text) : Option Float :=
  let whole := s.takeWhile Char.isDigit
  let rest := s.dropWhile Char.isDigit
  let (fraction, rest) := match rest with
    | '.' :: r => (r.takeWhile Char.isDigit, r.dropWhile Char.isDigit)
    | _ => ([], rest)
  if whole = [] ∧ fraction = [] then none
  else
    (exponent? rest).map fun e =>
      nearest (decimalValue (whole ++ fraction)) (e - fraction.length)

/-- The number of a text without a sign, which may also be the name of one. -/
def named? (s : Text) : Option Float :=
  if s = "inf".toList ∨ s = "infinity".toList then some (1 / 0)
  else if s = "nan".toList then some (0 / 0)
  else pointed? s

/-- The floating-point number that a text in lower case stands for. -/
def single (s : Text) : Reading Float :=
  let (negative, rest) := splitSign (common s)
  match named? rest with
  | some x => .ok (if negative then -x else x)
  | none => .error (.invalid ("could not convert string to float: ".toList ++ Text.quoted s))

/-- The value of a place in base sixty as a floating-point number. -/
def placeValue (place : Nat) : Reading Float :=
  let x := nearest (Nat.pow 60 place) 0
  if x.isInf then .error (.odd .tooManyPlaces) else .ok x

/-- The sum of a number in base sixty, given its places from a number on, the last one
first. -/
def sumFrom (place : Nat) (total : Float) : List Float → Reading Float
  | [] => .ok total
  | x :: rest => do sumFrom (place + 1) (total + x * (← placeValue place)) rest

/-- The floating-point number of a text in lower case, without underscores and without its
sign. -/
def unsignedFloating (s : Text) : Reading Float :=
  if s = ".inf".toList then .ok (1 / 0)
  else if s = ".nan".toList then .ok (0 / 0)
  else if s.contains ':' then do
    let places ← (s.splitOn ':').mapM single
    sumFrom 0 0 places.reverse
  else single s

/-- The floating-point number that a text stands for. -/
def floating (s : Text) : Reading Float := do
  let s := (dropUnderscores s).map Char.toLower
  if s = [] then .error (.odd .emptyNumber)
  else
    let (negative, rest) := splitSign s
    let x ← unsignedFloating rest
    return if negative then -x else x

end CommentMarkup.Yaml.Number
