/-
# The text of scalars

A scalar can be written plainly, between quotes, or as a block of lines.  In each form line
breaks are folded: a single one becomes a space, and of several the first is dropped.
-/
import CommentMarkup.Yaml.Cursor
import CommentMarkup.Text.Digit

namespace CommentMarkup.Yaml

/-! ### Plain scalars -/

/-- The indicators that end a plain scalar inside brackets. -/
def flowIndicators : List Char := [',', '[', ']', '\x7b', '\x7d']

/-- The characters of a plain scalar from here on, up to the next gap. -/
def plainRun (inFlow : Bool) : Text → Text
  | [] => []
  | c :: rest =>
    let closesKey := c = ':' &&
      rest.head?.all fun d => isGap d || (inFlow && flowIndicators.contains d)
    if isGap c || closesKey || (inFlow && (c = '?' || flowIndicators.contains c)) then []
    else c :: plainRun inFlow rest

/-- Skips spaces and line breaks after a first line break, and returns the breaks.  A document
marker ends the search and leaves none. -/
def plainBreaks : Nat → Cursor → Option Text × Cursor
  | 0, c => (none, c)
  | fuel + 1, c =>
    let c := c.skipSpaces
    match c.lineBreak? with
    | none => (some [], c)
    | some (b, c) =>
      if c.hasAnyMarker then (none, c)
      else
        let (later, c) := plainBreaks fuel c
        (later.map (b :: ·), c)

/-- What line breaks read as: one line feed reads as a space, and is dropped before others. -/
def folded (first : Char) (others : Text) : Text :=
  if first ≠ '\n' then first :: others else if others = [] then [' '] else others

/-- What stands for the gap after a run of a plain scalar, the position after the gap, and
whether the gap goes on to another line. -/
def plainGap (c : Cursor) : Text × Cursor × Bool :=
  let (spaces, c) := c.takeWhile (· = ' ')
  match c.lineBreak? with
  | none => (spaces, c, false)
  | some (b, c) =>
    if c.hasAnyMarker then ([], c, true)
    else
      match plainBreaks (c.rest.length + 1) c with
      | (none, c) => ([], c, true)
      | (some others, c) => (folded b others, c, true)

/-- A plain scalar, the position after it and the gap behind it, and whether that gap goes on
to another line.  Outside brackets the lines that follow must be indented at least as far as
given. -/
def plainScalar (inFlow : Bool) (indent : Int) : Nat → Text → Cursor → Text × Cursor × Bool
  | 0, _, c => ([], c, false)
  | fuel + 1, gap, c =>
    let run := if c.peek = some '#' then [] else plainRun inFlow c.rest
    if run = [] then ([], c, false)
    else
      let (after, c', newLine) := plainGap (c.forward run.length)
      if after = [] ∨ c'.peek = some '#' ∨ (inFlow = false ∧ (c'.column : Int) < indent) then
        (gap ++ run, c', newLine)
      else
        let (more, c'', newLine') := plainScalar inFlow indent fuel after c'
        (gap ++ run ++ more, c'', if more = [] then newLine else newLine')

/-! ### Quoted scalars -/

/-- The character of a one-letter escape. -/
def escape? : Char → Option Char
  | '0' => some '\x00'
  | 'a' => some '\x07'
  | 'b' => some '\x08'
  | 't' => some '\t'
  | '\t' => some '\t'
  | 'n' => some '\n'
  | 'v' => some '\x0b'
  | 'f' => some '\x0c'
  | 'r' => some '\r'
  | 'e' => some '\x1b'
  | ' ' => some ' '
  | '"' => some '"'
  | '\\' => some '\\'
  | '/' => some '/'
  | 'N' => some '\x85'
  | '_' => some '\xa0'
  | 'L' => some '\u2028'
  | 'P' => some '\u2029'
  | _ => none

/-- The number of hexadecimal digits after an escape. -/
def escapeWidth? : Char → Option Nat
  | 'x' => some 2
  | 'u' => some 4
  | 'U' => some 8
  | _ => none

/-- The character of a code point. -/
def charOfCode (code : Nat) : Reading Char :=
  if 0x80000000 ≤ code then .error (.odd .hugeCode)
  else if 0x110000 ≤ code then .error (.invalid "chr() arg not in range(0x110000)".toList)
  else if 0xD800 ≤ code ∧ code < 0xE000 then .error (.odd .halfPair)
  else .ok (Char.ofNat code)

/-- Skips line breaks inside quotes, with the blanks around them, and returns the breaks. -/
def quotedBreaks : Nat → Cursor → Reading (Text × Cursor)
  | 0, _ => .error .malformed
  | fuel + 1, c =>
    if c.hasAnyMarker then .error .malformed
    else
      let c := c.skipWhile fun ch => ch = ' ' || ch = '\t'
      match c.lineBreak? with
      | none => .ok ([], c)
      | some (b, c) => do
        let (later, c) ← quotedBreaks fuel c
        return (b :: later, c)

/-- Whether a character stands for itself inside quotes. -/
def isQuotedText (c : Char) : Bool := !(c = '\'' || c = '"' || c = '\\' || isGap c)

/-- What an escape stands for, and the position after it; the backslash has been passed. -/
def quotedEscape (c : Cursor) : Reading (Text × Cursor) :=
  match c.peek with
  | none => .error .malformed
  | some ch =>
    match escape? ch, escapeWidth? ch with
    | some e, _ => .ok ([e], c.next)
    | none, some width =>
      let digits := c.next.rest.take width
      match Text.number? 16 digits with
      | some code =>
        if digits.length < width then .error .malformed
        else do
          let e ← charOfCode code
          return ([e], c.next.forward width)
      | none => .error .malformed
    | none, none =>
      match c.lineBreak? with
      | some (_, c) => quotedBreaks (c.rest.length + 1) c
      | none => .error .malformed

/-- The text between here and the next gap or the closing quote. -/
def quotedRun (double : Bool) : Nat → Cursor → Reading (Text × Cursor)
  | 0, _ => .error .malformed
  | fuel + 1, c =>
    let (plain, c) := c.takeWhile isQuotedText
    let goOn (text : Text) (c : Cursor) : Reading (Text × Cursor) := do
      let (more, c) ← quotedRun double fuel c
      return (plain ++ text ++ more, c)
    match double, c.peek with
    | false, some '\'' =>
      if c.peekAt 1 = some '\'' then goOn ['\''] (c.forward 2) else .ok (plain, c)
    | true, some '\'' => goOn ['\''] c.next
    | false, some '"' => goOn ['"'] c.next
    | false, some '\\' => goOn ['\\'] c.next
    | true, some '\\' => do
      let (text, c) ← quotedEscape c.next
      goOn text c
    | _, _ => .ok (plain, c)

/-- What a gap inside quotes stands for. -/
def quotedGap (c : Cursor) : Reading (Text × Cursor) :=
  let (blanks, c) := c.takeWhile fun ch => ch = ' ' || ch = '\t'
  match c.peek with
  | none => .error .cutOff
  | some _ =>
    match c.lineBreak? with
    | none => .ok (blanks, c)
    | some (b, c) => do
      let (others, c) ← quotedBreaks (c.rest.length + 1) c
      return (folded b others, c)

/-- The text up to a closing quote, and the position after the quote. -/
def quotedRest (double : Bool) : Nat → Cursor → Reading (Text × Cursor)
  | 0, _ => .error .malformed
  | fuel + 1, c => do
    let (run, c) ← quotedRun double (c.rest.length + 1) c
    if c.peek = some (if double then '"' else '\'') then return (run, c.next)
    else
      let (gap, c) ← quotedGap c
      let (more, c) ← quotedRest double fuel c
      return (run ++ gap ++ more, c)

/-- A scalar between quotes, from its opening quote on. -/
def quotedScalar (double : Bool) (c : Cursor) : Reading (Text × Cursor) :=
  quotedRest double (c.rest.length + 1) c.next

/-! ### Block scalars -/

/-- What happens to the line breaks at the end of a block scalar. -/
inductive Chomping where
  /-- All are dropped. -/
  | strip
  /-- The first one stays. -/
  | clip
  /-- All stay. -/
  | keep
deriving DecidableEq, Repr

/-- The sign of a chomping. -/
def chomping? : Option Char → Option Chomping
  | some '+' => some .keep
  | some '-' => some .strip
  | _ => none

/-- The digit that gives the indentation of a block scalar, which must not be zero. -/
def increment? (c : Cursor) : Reading (Option Nat × Cursor) :=
  match c.peek with
  | some ch =>
    if '0' ≤ ch ∧ ch ≤ '9' then
      if ch = '0' then .error .malformed else .ok (some (ch.toNat - '0'.toNat), c.next)
    else .ok (none, c)
  | none => .ok (none, c)

/-- The header of a block scalar: chomping and indentation in either order, then the rest of
the line, which may hold a comment. -/
def blockHeader (c : Cursor) : Reading (Chomping × Option Nat × Cursor) := do
  let (chomping, increment, c) ← match chomping? c.peek with
    | some chomping => do
      let (increment, c) ← increment? c.next
      pure (chomping, increment, c)
    | none => do
      let (increment, c) ← increment? c
      match increment, chomping? c.peek with
      | some n, some chomping => pure (chomping, some n, c.next)
      | _, _ => pure (.clip, increment, c)
  if (c.peek).any fun ch => !(ch = ' ' || isBreak ch) then .error .malformed
  else
    let c := c.skipSpaces.skipComment
    match c.lineBreak? with
    | some (_, c) => return (chomping, increment, c)
    | none => if c.peek = none then return (chomping, increment, c) else .error .malformed

/-- Spaces up to a column, at most. -/
def indentTo (column : Nat) (c : Cursor) : Cursor :=
  c.forward ((c.rest.takeWhile (· = ' ')).length.min (column - c.column))

/-- The line breaks from here on, each followed by spaces up to a column. -/
def blockBreaks (column : Nat) : Nat → Cursor → Text × Cursor
  | 0, c => ([], c)
  | fuel + 1, c =>
    let c := indentTo column c
    match c.lineBreak? with
    | none => ([], c)
    | some (b, c) =>
      let (later, c) := blockBreaks column fuel c
      (b :: later, c)

/-- The line breaks and spaces before the first line of a block scalar: the breaks, the
greatest column reached, and the position after them. -/
def blockIndentation : Nat → Nat → Cursor → Text × Nat × Cursor
  | 0, widest, c => ([], widest, c)
  | fuel + 1, widest, c =>
    let c := c.skipSpaces
    let widest := max widest c.column
    match c.lineBreak? with
    | none => ([], widest, c)
    | some (b, c) =>
      let (later, widest, c) := blockIndentation fuel widest c
      (b :: later, widest, c)

/-- The lines of a block scalar, all at the same column.  `before` holds the line breaks that
precede the first one. -/
def blockLines (isFolded : Bool) (chomping : Chomping) (column : Nat) :
    Nat → Text → Cursor → Text × Cursor
  | 0, _, c => ([], c)
  | fuel + 1, before, c =>
    let indented (c : Cursor) : Bool := (c.peek).any fun ch => ch = ' ' || ch = '\t'
    let flush := !indented c
    let (line, c) := c.takeWhile fun ch => !isBreak ch
    let (lineEnd, c) : Text × Cursor := match c.lineBreak? with
      | some (b, c) => ([b], c)
      | none => ([], c)
    let (breaks, c) := blockBreaks column (c.rest.length + 1) c
    if c.column = column ∧ c.peek ≠ none then
      -- the break is folded only between two lines of which neither is indented further
      let join : Text :=
        if isFolded && flush && lineEnd = ['\n'] && !indented c then
          if breaks = [] then [' '] else []
        else lineEnd
      let (more, c) := blockLines isFolded chomping column fuel breaks c
      (before ++ line ++ join ++ more, c)
    else
      let tail := match chomping with
        | .strip => []
        | .clip => lineEnd
        | .keep => lineEnd ++ breaks
      (before ++ line ++ tail, c)

/-- A block scalar, from its indicator on, inside a block with a given indentation. -/
def blockScalar (isFolded : Bool) (indent : Int) (c : Cursor) : Reading (Text × Cursor) := do
  let (chomping, increment, c) ← blockHeader c.next
  let least := max 1 (indent + 1).toNat
  let fuel := c.rest.length + 1
  let (breaks, column, c) := match increment with
    | none =>
      let (breaks, widest, c) := blockIndentation fuel 0 c
      (breaks, max least widest, c)
    | some n =>
      let column := least + n - 1
      let (breaks, c) := blockBreaks column fuel c
      (breaks, column, c)
  if c.column = column ∧ c.peek ≠ none then
    return blockLines isFolded chomping column fuel breaks c
  else return (if chomping = .keep then breaks else [], c)

end CommentMarkup.Yaml
