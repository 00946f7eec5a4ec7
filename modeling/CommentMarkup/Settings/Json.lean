/-
# JSON values of settings

A setting that is a list is written in the environment as JSON.  The reader accepts all of
JSON, and the three names of numbers that are not finite, but keeps apart only what a setting
can use: texts, lists and null.
-/
import CommentMarkup.Decimal.Written
import CommentMarkup.Text.Digit

namespace CommentMarkup

/-- What a setting can be given as. -/
inductive Json where
  /-- No value. -/
  | null
  /-- A text. -/
  | text (value : Text)
  /-- A list of values. -/
  | list (items : List Json)
  /-- A number, a truth value, an object, or a text with half a surrogate pair. -/
  | other
deriving Repr

namespace Json

/-- The white space of JSON. -/
def isSpace (c : Char) : Bool := c = ' ' || c = '\t' || c = '\n' || c = '\r'

/-- A text without the white space it begins with. -/
def skipSpace (s : Text) : Text := s.dropWhile isSpace

/-- The character of a one-letter escape. -/
def escape? : Char → Option Char
  | '"' => some '"'
  | '\\' => some '\\'
  | '/' => some '/'
  | 'b' => some '\x08'
  | 'f' => some '\x0c'
  | 'n' => some '\n'
  | 'r' => some '\r'
  | 't' => some '\t'
  | _ => none

/-- The code units of a string up to its closing quote, and what follows the quote. -/
def stringUnits : Text → Option (List Nat × Text)
  | [] => none
  | '"' :: rest => some ([], rest)
  | '\\' :: 'u' :: a :: b :: c :: d :: rest => do
    let unit ← Text.number? 16 [a, b, c, d]
    let (units, after) ← stringUnits rest
    return (unit :: units, after)
  | '\\' :: e :: rest => do
    let c ← escape? e
    let (units, after) ← stringUnits rest
    return (c.toNat :: units, after)
  | c :: rest =>
    if c.toNat < 0x20 then none
    else do
      let (units, after) ← stringUnits rest
      return (c.toNat :: units, after)

/-- The text of some code units, if every surrogate stands in a pair. -/
def ofUnits : List Nat → Option Text
  | [] => some []
  | u :: rest =>
    if 0xD800 ≤ u ∧ u < 0xDC00 then
      match rest with
      | v :: rest' =>
        if 0xDC00 ≤ v ∧ v < 0xE000 then
          (ofUnits rest').map
            (Char.ofNat (0x10000 + (u - 0xD800) * 0x400 + (v - 0xDC00)) :: ·)
        else none
      | [] => none
    else if 0xDC00 ≤ u ∧ u < 0xE000 then none
    else (ofUnits rest).map (Char.ofNat u :: ·)

/-- What follows a run of at least one digit. -/
def afterDigits? (s : Text) : Option Text :=
  match s with
  | c :: r => if c.isDigit then some (r.dropWhile Char.isDigit) else none
  | [] => none

/-- What follows a fraction, which may be missing. -/
def afterFraction (s : Text) : Text :=
  match s with
  | '.' :: r => (afterDigits? r).getD s
  | _ => s

/-- What follows an exponent, which may be missing. -/
def afterExponent (s : Text) : Text :=
  match s with
  | c :: r =>
    if c = 'e' ∨ c = 'E' then
      let digits := match r with
        | d :: r' => if d = '+' ∨ d = '-' then r' else r
        | [] => r
      (afterDigits? digits).getD s
    else s
  | [] => s

/-- What follows a number.  An integer must not have too many digits. -/
def afterNumber? (s : Text) : Option Text := do
  let unsigned := match s with
    | '-' :: r => r
    | _ => s
  let afterWhole ← match unsigned with
    | '0' :: r => some r
    | _ => afterDigits? unsigned
  let rest := afterExponent (afterFraction afterWhole)
  let isInteger := decide (rest.length = afterWhole.length)
  if isInteger && decide (Decimal.longest < unsigned.length - afterWhole.length) then none
  else return rest

/-- The words that stand for values which no setting can use. -/
def words : List Text :=
  ["true".toList, "false".toList, "NaN".toList, "Infinity".toList, "-Infinity".toList]

/-- What follows one of the words, or a number. -/
def afterOther? (s : Text) : Option Text :=
  match words.findSome? fun w => Text.after? w s with
  | some rest => some rest
  | none => afterNumber? s

/-- Why a text is not read as JSON. -/
inductive Flaw where
  /-- It is not JSON. -/
  | malformed
  /-- It has too many lists and objects inside one another; the innermost one is a list. -/
  | deepList
  /-- It has too many lists and objects inside one another; the innermost one is an object. -/
  | deepObject
deriving DecidableEq, Repr

/-- The greatest number of lists and objects inside one another. -/
def deepest : Nat := 985

/-- A part that must be there. -/
def expect : Option α → Except Flaw α
  | some a => .ok a
  | none => .error .malformed

mutual

/-- Reads one value, with no white space before it, and returns what follows.  The depth is the
number of lists and objects around it.  The fuel bounds the number of steps. -/
def value (depth : Nat) : Nat → Text → Except Flaw (Json × Text)
  | 0, _ => .error .malformed
  | _ + 1, '"' :: s => do
    let (units, rest) ← expect (stringUnits s)
    return ((ofUnits units).elim .other .text, rest)
  | fuel + 1, '[' :: s =>
    if deepest ≤ depth then .error .deepList
    else
      match skipSpace s with
      | ']' :: rest => .ok (.list [], rest)
      | s' => do
        let (items, rest) ← items (depth + 1) fuel s'
        return (.list items, rest)
  | fuel + 1, '\x7b' :: s =>
    if deepest ≤ depth then .error .deepObject
    else
      match skipSpace s with
      | '\x7d' :: rest => .ok (.other, rest)
      | s' => do
        let rest ← members (depth + 1) fuel s'
        return (.other, rest)
  | _ + 1, s =>
    match Text.after? "null".toList s with
    | some rest => .ok (.null, rest)
    | none => do return (.other, ← expect (afterOther? s))

/-- Reads the items of a list up to its closing bracket. -/
def items (depth : Nat) : Nat → Text → Except Flaw (List Json × Text)
  | 0, _ => .error .malformed
  | fuel + 1, s => do
    let (first, rest) ← value depth fuel s
    match skipSpace rest with
    | ']' :: rest => return ([first], rest)
    | ',' :: rest =>
      let (others, rest) ← items depth fuel (skipSpace rest)
      return (first :: others, rest)
    | _ => .error .malformed

/-- Reads the members of an object up to its closing brace. -/
def members (depth : Nat) : Nat → Text → Except Flaw Text
  | 0, _ => .error .malformed
  | fuel + 1, '"' :: s => do
    let (_, rest) ← expect (stringUnits s)
    match skipSpace rest with
    | ':' :: rest =>
      let (_, rest) ← value depth fuel (skipSpace rest)
      match skipSpace rest with
      | '\x7d' :: rest => return rest
      | ',' :: rest => members depth fuel (skipSpace rest)
      | _ => .error .malformed
    | _ => .error .malformed
  | _ + 1, _ => .error .malformed

end

/-- Reads a text that holds one JSON value and white space. -/
def read (s : Text) : Except Flaw Json := do
  let (v, rest) ← value 0 (2 * s.length + 2) (skipSpace s)
  if skipSpace rest = [] then return v else .error .malformed

end Json

end CommentMarkup
