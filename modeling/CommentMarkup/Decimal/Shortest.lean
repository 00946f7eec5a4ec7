/-
# Shortest decimals

The decimal that is written for a binary floating-point number has the fewest digits that
read back as that number, and among those it is the closest to it.  Everything is decided by
comparing natural numbers; no floating-point operation is involved.
-/

namespace CommentMarkup.Decimal

/-- A finite number that is not negative: `mantissa * 2 ^ exponent`. -/
structure Binary where
  /-- The mantissa. -/
  mantissa : Nat
  /-- The exponent of two. -/
  exponent : Int
  /-- Whether the number below is only half as far away as the number above. -/
  narrowBelow : Bool
deriving DecidableEq, Repr

/-- The number that the bits of a finite value stand for, without its sign. -/
def Binary.ofBits (bits : UInt64) : Binary :=
  let e := ((bits >>> 52) &&& 0x7FF).toNat
  let f := (bits &&& 0xFFFFFFFFFFFFF).toNat
  if e = 0 then ⟨f, -1074, false⟩
  else ⟨0x10000000000000 + f, (e : Int) - 1075, decide (f = 0) && decide (1 < e)⟩

/-- Compares `a * 10 ^ i` with `n * 2 ^ j`. -/
def compareScaled (a : Nat) (i : Int) (n : Nat) (j : Int) : Ordering :=
  compare (a * Nat.pow 10 i.toNat * Nat.pow 2 (-j).toNat)
    (n * Nat.pow 2 j.toNat * Nat.pow 10 (-i).toNat)

/-- Whether `digits * 10 ^ scale` reads back as a number: whether it lies between the points
half-way to its neighbours, where the points themselves count for an even mantissa. -/
def Binary.readsBack (x : Binary) (digits : Nat) (scale : Int) : Bool :=
  let low := if x.narrowBelow then 4 * x.mantissa - 1 else 4 * x.mantissa - 2
  let high := 4 * x.mantissa + 2
  let even := x.mantissa % 2 == 0
  let fromLow := compareScaled digits scale low (x.exponent - 2)
  let fromHigh := compareScaled digits scale high (x.exponent - 2)
  (fromLow == .gt || (even && fromLow == .eq)) && (fromHigh == .lt || (even && fromHigh == .eq))

/-- The least `k` with the number below `10 ^ k`. -/
def Binary.scale (x : Binary) : Int :=
  let guess := ((Nat.log2 x.mantissa : Int) + x.exponent) * 30103 / 100000
  let below := fun k => compareScaled 1 k x.mantissa x.exponent == .gt
  (([guess - 1, guess, guess + 1, guess + 2].find? below).getD (guess + 3))

/-- The greatest number of steps of `10 ^ scale` that stays below or at the number. -/
def Binary.steps (x : Binary) (scale : Int) : Nat :=
  (x.mantissa * Nat.pow 2 x.exponent.toNat * Nat.pow 10 (-scale).toNat)
    / (Nat.pow 10 scale.toNat * Nat.pow 2 (-x.exponent).toNat)

/-- The closest of the two neighbours of a number on a grid that reads back, if one does.  On
a tie the even one is taken. -/
def Binary.onGrid? (x : Binary) (scale : Int) : Option Nat :=
  let low := x.steps scale
  let high := low + 1
  match x.readsBack low scale, x.readsBack high scale with
  | false, false => none
  | true, false => some low
  | false, true => some high
  | true, true =>
    match compareScaled (low + high) scale (2 * x.mantissa) x.exponent with
    | .gt => some low
    | .lt => some high
    | .eq => some (if low % 2 = 0 then low else high)

/-- The shortest decimal of a number that is not zero, as its digits and the exponent of its
last digit: the coarsest grid with a neighbour that reads back. -/
def Binary.shortest (x : Binary) : Nat × Int :=
  let k := x.scale
  ((List.range 17).findSome? fun (n : Nat) =>
      let scale := k - 1 - (n : Int)
      (x.onGrid? scale).map fun digits => (digits, scale)).getD
    (x.steps (-1074), -1074)

/-- Moves the zeros at the end of a number of digits into the exponent.  The fuel bounds their
number. -/
def trimZeros : Nat → Nat × Int → Nat × Int
  | 0, d => d
  | fuel + 1, (digits, scale) =>
    if digits ≠ 0 ∧ digits % 10 = 0 then trimZeros fuel (digits / 10, scale + 1)
    else (digits, scale)

end CommentMarkup.Decimal
