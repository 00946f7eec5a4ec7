/-
# Scalars

The value of a scalar follows from its kind and its text.  Every scalar has a written form, in
which it becomes the name or the value of a variable.
-/
import CommentMarkup.Yaml.Kind

namespace CommentMarkup.Yaml

/-- The value of a scalar. -/
inductive Scalar where
  /-- No value. -/
  | null
  /-- A truth value. -/
  | truth (value : Bool)
  /-- An integer. -/
  | integer (value : Int)
  /-- A floating-point number. -/
  | floating (value : Float)
  /-- A date, or a date with a time. -/
  | moment (value : Moment)
  /-- A text. -/
  | text (value : Text)

namespace Scalar

/-! ### Written forms -/

/-- The written form of a scalar.  An integer must not have too many digits. -/
def written : Scalar → Reading Text
  | .null => .ok "None".toList
  | .truth true => .ok "True".toList
  | .truth false => .ok "False".toList
  | .integer n =>
    if Decimal.isTooLong n then .error (.invalid Decimal.tooLongToWrite)
    else .ok (Decimal.writtenInt n)
  | .floating x => .ok (Decimal.writtenFloat x)
  | .moment m => .ok m.written
  | .text t => .ok t

/-! ### Keys -/

/-- The number that a scalar counts as, if it is an integer or a truth value. -/
def wholeNumber? : Scalar → Option Int
  | .truth b => some (if b then 1 else 0)
  | .integer n => some n
  | _ => none

/-- Whether a floating-point number equals an integer. -/
def floatEqualsInt (x : Float) (n : Int) : Bool :=
  if x.isNaN || x.isInf then false
  else
    let b := Decimal.Binary.ofBits x.toBits
    let magnitude := b.mantissa * Nat.pow 2 b.exponent.toNat
    let scaled := n.natAbs * Nat.pow 2 (-b.exponent).toNat
    decide (magnitude = scaled) && (n = 0 || (decide (0 < n) == decide (0 < x)))

/-- Whether two scalars are the same key of a mapping.  Numbers are compared as numbers, where
the truth values count as one and zero. -/
def sameKey (a b : Scalar) : Bool :=
  match a, b with
  | .null, .null => true
  | .text s, .text t => s = t
  | .moment m, .moment n => m.same n
  | .floating x, .floating y => x == y || (x.isNaN && y.isNaN)
  | .floating x, _ => b.wholeNumber?.any (floatEqualsInt x)
  | _, .floating y => a.wholeNumber?.any (floatEqualsInt y)
  | _, _ =>
    match a.wholeNumber?, b.wholeNumber? with
    | some m, some n => m = n
    | _, _ => false

/-! ### Values -/

/-- The truth value of a text, in which large and small letters are alike. -/
def truthOf (s : Text) : Reading Bool :=
  match Kind.truthValues.lookup (s.map Char.toLower) with
  | some b => .ok b
  | none => .error (.odd (.noTruthValue (s.map Char.toLower)))

/-- The value of a text of a kind, which must be the kind of a scalar. -/
def ofText (kind : Kind) (s : Text) : Reading Scalar :=
  match kind with
  | .null => .ok .null
  | .truth => (truthOf s).map .truth
  | .integer => (Number.integer s).map .integer
  | .floating => (Number.floating s).map .floating
  | .moment =>
    (Moment.read (if s.getLast? = some '\n' then s.dropLast else s)).map .moment
  | .text => .ok (.text s)
  | .list | .mapping | .merge | .standIn | .unread | .unknown => .error .malformed

end Scalar

end CommentMarkup.Yaml
