/-
# Written numbers

How numbers of the variables file are written into a document.  A floating-point number
always shows a point or an exponent.  It is written without an exponent if its first digit
stands at one of the places from `10 ^ -4` to `10 ^ 15`; an exponent has a sign and at least
two digits.

Integers of more than 4300 digits are neither read nor written in decimal.
-/
import CommentMarkup.Decimal.Shortest
import CommentMarkup.Text.Encoding

namespace CommentMarkup.Decimal

/-- The least exponent of the first digit for which no exponent is written. -/
def plainFrom : Int := -4

/-- The least exponent of the first digit above those for which no exponent is written. -/
def plainBelow : Int := 16

/-- The greatest number of digits of an integer that is read or written in decimal. -/
def longest : Nat := 4300

/-- The beginning of the wording for an integer with too many digits. -/
def tooLong : Text :=
  "Exceeds the limit (".toList ++ decimal longest
    ++ " digits) for integer string conversion".toList

/-- The end of the wording for an integer with too many digits. -/
def tooLongRemedy : Text :=
  "; use sys.set_int_max_str_digits() to increase the limit".toList

/-- The wording for an integer with too many digits to be read. -/
def tooLongToRead (digits : Nat) : Text :=
  tooLong ++ ": value has ".toList ++ decimal digits ++ " digits".toList ++ tooLongRemedy

/-- The wording for an integer with too many digits to be written. -/
def tooLongToWrite : Text := tooLong ++ tooLongRemedy

/-- Whether an integer has too many digits to be written. -/
def isTooLong (n : Int) : Bool := decide (Nat.pow 10 longest ≤ n.natAbs)

/-- An integer in decimal. -/
def writtenInt (n : Int) : Text := if n < 0 then '-' :: decimal n.natAbs else decimal n.natAbs

/-- An exponent with its sign. -/
def writtenExponent (e : Int) : Text :=
  let digits := decimal e.natAbs
  'e' :: (if e < 0 then '-' else '+') :: List.replicate (2 - digits.length) '0' ++ digits

/-- A decimal `digits * 10 ^ scale` without trailing zeros, as it is written. -/
def writtenDecimal (digits : Nat) (scale : Int) : Text :=
  let ds := decimal digits
  let first := scale + (ds.length : Int) - 1
  if plainFrom ≤ first ∧ first < plainBelow then
    if 0 ≤ scale then ds ++ List.replicate scale.toNat '0' ++ ['.', '0']
    else if 0 ≤ first then
      ds.take (first.toNat + 1) ++ '.' :: ds.drop (first.toNat + 1)
    else '0' :: '.' :: List.replicate (-first - 1).toNat '0' ++ ds
  else
    (match ds with
      | [] => []
      | [d] => [d]
      | d :: rest => d :: '.' :: rest) ++ writtenExponent first

/-- A floating-point number as it is written. -/
def writtenFloat (x : Float) : Text :=
  if x.isNaN then "nan".toList
  else
    let bits := x.toBits
    let sign : Text := if (bits >>> 63) = 1 then ['-'] else []
    sign ++
      (if x.isInf then "inf".toList
      else
        let b := Binary.ofBits bits
        if b.mantissa = 0 then ['0', '.', '0']
        else
          let (digits, scale) := trimZeros 400 b.shortest
          writtenDecimal digits scale)

end CommentMarkup.Decimal
