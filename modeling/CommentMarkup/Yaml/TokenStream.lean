/-
# From text to tokens

The tokens of a text are found from left to right.  A deeper column opens a block and a
shallower one closes blocks.  That a scalar was a key shows only at the colon behind it, so
possible keys are remembered, at most one for each level of brackets, and the token that
marks the key is put in later.  A key must be on one line with its colon, and close to it.

A token is settled as soon as no possible key stands before or at it.  If a fault stops the
search, the settled tokens are all that is left of it.
-/
import CommentMarkup.Yaml.Token
import CommentMarkup.Yaml.ScalarText
import CommentMarkup.Decimal.Written

namespace CommentMarkup.Yaml

/-- A token that will turn out to be a key if a colon follows it. -/
structure PossibleKey where
  /-- The number of tokens before it. -/
  number : Nat
  /-- Whether the block it stands in makes no sense unless it is a key. -/
  required : Bool
  /-- The position at which it begins. -/
  cursor : Cursor

/-- The state of the search for tokens. -/
structure TokenStream where
  /-- Where the search has got to. -/
  cursor : Cursor
  /-- The tokens found so far, the last one first. -/
  tokens : List Token := []
  /-- The number of tokens found so far. -/
  count : Nat := 0
  /-- The column of the innermost block. -/
  indent : Int := -1
  /-- The columns of the blocks around it. -/
  outer : List Int := []
  /-- The number of open brackets. -/
  depth : Nat := 0
  /-- Whether a key may begin here. -/
  keyAllowed : Bool := true
  /-- The possible keys and the numbers of open brackets around them. -/
  keys : List (Nat × PossibleKey) := []

namespace TokenStream

/-- The greatest distance between the beginning of a key and its colon. -/
def longestKey : Nat := 1024

/-- Adds a token. -/
def push (s : TokenStream) (t : Token) : TokenStream :=
  { s with tokens := t :: s.tokens, count := s.count + 1 }

/-- Puts a token in after a number of tokens. -/
def insert (s : TokenStream) (number : Nat) (t : Token) : TokenStream :=
  -- the tokens are held last one first, so the later ones stand at the front
  let later := s.count - number
  { s with tokens := s.tokens.take later ++ t :: s.tokens.drop later, count := s.count + 1 }

/-- Moves the position. -/
def moveTo (s : TokenStream) (c : Cursor) : TokenStream := { s with cursor := c }

/-- The column of the position. -/
def column (s : TokenStream) : Int := s.cursor.column

/-- Whether a possible key can no longer be one. -/
def isStale (s : TokenStream) (k : PossibleKey) : Bool :=
  k.cursor.line ≠ s.cursor.line || decide (longestKey < s.cursor.index - k.cursor.index)

/-- Forgets the possible keys that can no longer be keys; none of them may be required. -/
def dropStale (s : TokenStream) : Reading TokenStream :=
  if s.keys.any fun k => s.isStale k.2 && k.2.required then .error .malformed
  else .ok { s with keys := s.keys.filter fun k => !s.isStale k.2 }

/-- The possible key at the present level of brackets. -/
def possibleKey? (s : TokenStream) : Option PossibleKey := s.keys.lookup s.depth

/-- The state without the possible key at the present level of brackets. -/
def withoutKey (s : TokenStream) : TokenStream :=
  { s with keys := s.keys.filter fun k => decide (k.1 ≠ s.depth) }

/-- Forgets the possible key at the present level of brackets, which must not be required. -/
def dropKey (s : TokenStream) : Reading TokenStream :=
  if s.possibleKey?.any (·.required) then .error .malformed else .ok s.withoutKey

/-- Remembers that the next token may be a key. -/
def saveKey (s : TokenStream) : Reading TokenStream :=
  if s.keyAllowed then do
    let s ← s.dropKey
    let k : PossibleKey :=
      ⟨s.count, decide (s.depth = 0) && decide (s.indent = s.column), s.cursor⟩
    return { s with keys := (s.depth, k) :: s.keys }
  else .ok s

/-- Closes blocks whose column is greater than a given one, given the columns of the blocks
around the innermost one, and its own. -/
def closeBlocks (column : Int) : List Int → Int → TokenStream → TokenStream
  | [], _, s => s
  | upper :: outer, indent, s =>
    if column < indent then
      closeBlocks column outer upper { s.push .blockEnd with indent := upper, outer := outer }
    else s

/-- Closes the blocks whose column is greater than a given one; inside brackets there are
none. -/
def closeTo (column : Int) (s : TokenStream) : TokenStream :=
  if s.depth = 0 then closeBlocks column s.outer s.indent s else s

/-- Opens a block at a column if it is deeper than the innermost one, with a token that is put
in after a number of tokens. -/
def openAt (s : TokenStream) (column : Int) (number : Nat) (t : Token) : TokenStream :=
  if s.indent < column then
    { s.insert number t with indent := column, outer := s.indent :: s.outer }
  else s

/-- Skips spaces, comments and line breaks.  Outside brackets a key may begin on every new
line. -/
def skipGap : Nat → TokenStream → TokenStream
  | 0, s => s
  | fuel + 1, s =>
    let c := s.cursor.skipSpaces.skipComment
    match c.lineBreak? with
    | some (_, c) => skipGap fuel { s with cursor := c, keyAllowed := s.keyAllowed || s.depth = 0 }
    | none => s.moveTo c

/-- A token that stands by itself on one character. -/
def single (s : TokenStream) (t : Token) : TokenStream := (s.moveTo s.cursor.next).push t

/-- An opening bracket or brace. -/
def openFlow (s : TokenStream) (t : Token) : Reading TokenStream := do
  let s ← s.saveKey
  return { s.single t with depth := s.depth + 1, keyAllowed := true }

/-- A closing bracket or brace. -/
def closeFlow (s : TokenStream) (t : Token) : Reading TokenStream := do
  let s ← s.dropKey
  return { s.single t with depth := s.depth - 1, keyAllowed := false }

/-- A comma. -/
def flowEntry (s : TokenStream) : Reading TokenStream := do
  let s ← s.dropKey
  return { s.single .flowEntry with keyAllowed := true }

/-- The dash before an item. -/
def blockEntry (s : TokenStream) : Reading TokenStream :=
  if s.depth = 0 ∧ s.keyAllowed = false then .error .malformed
  else do
    let s := if s.depth = 0 then s.openAt s.column s.count .blockListStart else s
    let s ← s.dropKey
    return { s.single .blockEntry with keyAllowed := true }

/-- The question mark before a key. -/
def explicitKey (s : TokenStream) : Reading TokenStream :=
  if s.depth = 0 ∧ s.keyAllowed = false then .error .malformed
  else do
    let s := if s.depth = 0 then s.openAt s.column s.count .blockMappingStart else s
    let s ← s.dropKey
    return { s.single .key with keyAllowed := decide (s.depth = 0) }

/-- The colon before a value.  It turns the possible key before it into a key. -/
def value (s : TokenStream) : Reading TokenStream :=
  match s.possibleKey? with
  | some k =>
    -- the token found there was a key, and if it stands deeper, it opens a mapping
    let s := s.withoutKey.insert k.number .key
    let s := if s.depth = 0 then s.openAt k.cursor.column k.number .blockMappingStart else s
    .ok { s.single .value with keyAllowed := false }
  | none =>
    if s.depth = 0 ∧ s.keyAllowed = false then .error .malformed
    else do
      let s := if s.depth = 0 then s.openAt s.column s.count .blockMappingStart else s
      let s ← s.dropKey
      return { s.single .value with keyAllowed := decide (s.depth = 0) }

/-- Whether a character may stand in the name of an anchor or a directive. -/
def isNameChar (c : Char) : Bool := c.isAlphanum || c = '-' || c = '_'

/-- The characters that may follow the name of an anchor. -/
def anchorEnds : List Char := ['?', ':', ',', ']', '\x7d', '%', '@', '`']

/-- The name after the sign of an anchor or a reference. -/
def anchorName (c : Cursor) : Reading (Text × Cursor) :=
  let (name, c) := c.next.takeWhile isNameChar
  if name = [] then .error .malformed
  else if (c.peek).all fun ch => isGap ch || anchorEnds.contains ch then .ok (name, c)
  else .error .malformed

/-- Whether a character may stand in a tag. -/
def isTagChar (c : Char) : Bool := isNameChar c || ";/?:@&=+$,.!~*'()[]%".toList.contains c

/-- The bytes of escapes that follow one another: each is a percent sign and two digits. -/
def escapedBytes : Text → Reading (Bytes × Text)
  | '%' :: a :: b :: rest =>
    match Text.number? 16 [a, b] with
    | some n => do
      let (bytes, rest) ← escapedBytes rest
      return (UInt8.ofNat n :: bytes, rest)
    | none => .error .malformed
  | '%' :: _ => .error .malformed
  | rest => .ok ([], rest)

/-- The text of a part of a tag, in which escapes stand for the bytes of characters.  The fuel
bounds the number of runs of escapes. -/
def unescaped : Nat → Text → Reading Text
  | 0, _ => .error .malformed
  | fuel + 1, s => do
    let plain := s.takeWhile (· ≠ '%')
    match s.dropWhile (· ≠ '%') with
    | [] => return plain
    | rest =>
      let (bytes, rest) ← escapedBytes rest
      match Encoding.utf8.decode bytes with
      | .error _ => .error .malformed
      | .ok text => return plain ++ text ++ (← unescaped fuel rest)

/-- A part of a tag, which must not be empty. -/
def tagPart (c : Cursor) : Reading (Text × Cursor) := do
  let (part, c) := c.takeWhile isTagChar
  if part = [] then .error .malformed else return (← unescaped (part.length + 1) part, c)

/-- The handle of a tag: a name between exclamation marks, or one exclamation mark before a
space. -/
def tagHandle (c : Cursor) : Reading (Text × Cursor) :=
  if c.peek ≠ some '!' then .error .malformed
  else if c.peekAt 1 = some ' ' then .ok (['!'], c.next)
  else
    let (name, c) := c.next.takeWhile isNameChar
    if c.peek = some '!' then .ok ('!' :: name ++ ['!'], c.next) else .error .malformed

/-- Whether a space, the end of the line or the end of the text stands here. -/
def endsWord (c : Cursor) : Bool := (c.peek).all fun ch => ch = ' ' || isBreak ch

/-- A tag, from its exclamation mark on: its handle and its suffix. -/
def tagParts (c : Cursor) : Reading ((Option Text × Text) × Cursor) := do
  let (parts, c) ← match c.peekAt 1 with
    | some '<' => do
      let (suffix, c) ← tagPart (c.forward 2)
      if c.peek = some '>' then pure ((none, suffix), c.next) else .error .malformed
    | _ =>
      if c.endsAt 1 then pure ((none, ['!']), c.next)
      else do
        let word := c.next.rest.takeWhile fun ch => !(ch = ' ' || isBreak ch)
        let (handle, c) ←
          if word.contains '!' then tagHandle c else pure (['!'], c.next)
        let (suffix, c) ← tagPart c
        pure ((some handle, suffix), c)
  if endsWord c then return (parts, c) else .error .malformed

/-- An anchor, a reference or a tag, which may begin a key. -/
def property (s : TokenStream) (found : Reading (Token × Cursor)) : Reading TokenStream := do
  let s ← s.saveKey
  let (t, c) ← found
  return { (s.moveTo c).push t with keyAllowed := false }

/-- A number of a version, which must not have too many digits. -/
def versionNumber (c : Cursor) : Reading (Nat × Cursor) :=
  let (digits, c) := c.takeWhile Char.isDigit
  if digits = [] then .error .malformed
  else if Decimal.longest < digits.length then
    .error (.invalid (Decimal.tooLongToRead digits.length))
  else .ok ((Text.number? 10 digits).getD 0, c)

/-- The declaration of a version: two numbers with a point between them. -/
def versionDeclaration (c : Cursor) : Reading (Declaration × Cursor) := do
  let (major, c) ← versionNumber c.skipSpaces
  if c.peek ≠ some '.' then .error .malformed
  else
    let (_, c) ← versionNumber c.next
    return (.version major, c)

/-- The declaration of a handle: the handle and what it stands for. -/
def handleDeclaration (c : Cursor) : Reading (Declaration × Cursor) := do
  let (handle, c) ← tagHandle c.skipSpaces
  if c.peek ≠ some ' ' then .error .malformed
  else
    let (meaning, c) ← tagPart c.skipSpaces
    return (.handle handle meaning, c)

/-- A directive line. -/
def directive (s : TokenStream) : Reading TokenStream := do
  let s ← (s.closeTo (-1)).dropKey
  let (name, c) := s.cursor.next.takeWhile isNameChar
  if name = [] ∨ endsWord c = false then .error .malformed
  else
    let (declaration, c) ←
      if name = "YAML".toList then versionDeclaration c
      else if name = "TAG".toList then handleDeclaration c
      else pure (.other, c.skipWhile fun ch => !isBreak ch)
    if endsWord c = false then .error .malformed
    else
      let c := c.skipSpaces.skipComment
      if (c.peek).all isBreak then
        return { (s.moveTo c.next).push (.directive declaration) with keyAllowed := false }
      else .error .malformed

/-- A document marker. -/
def marker (s : TokenStream) (t : Token) : Reading TokenStream := do
  let s ← (s.closeTo (-1)).dropKey
  return { (s.moveTo (s.cursor.forward 3)).push t with keyAllowed := false }

/-- A block scalar.  A key may follow it. -/
def block (s : TokenStream) (isFolded : Bool) : Reading TokenStream := do
  let s ← { s with keyAllowed := true }.dropKey
  let (text, c) ← blockScalar isFolded s.indent s.cursor
  return (s.moveTo c).push (.scalar text false)

/-- A scalar between quotes. -/
def quoted (s : TokenStream) (double : Bool) : Reading TokenStream := do
  let s ← s.saveKey
  let (text, c) ← quotedScalar double s.cursor
  return { (s.moveTo c).push (.scalar text false) with keyAllowed := false }

/-- A plain scalar.  A key may follow it on another line. -/
def plain (s : TokenStream) : Reading TokenStream := do
  let s ← s.saveKey
  let (text, c, newLine) :=
    plainScalar (decide (0 < s.depth)) (s.indent + 1) (s.cursor.rest.length + 1) [] s.cursor
  return { (s.moveTo c).push (.scalar text true) with keyAllowed := newLine }

/-- The characters that cannot begin a plain scalar. -/
def indicators : List Char := "-?:,[]\x7b\x7d#&*!|>'\"%@`".toList

/-- Whether a plain scalar begins here. -/
def beginsPlain (s : TokenStream) (ch : Char) : Bool :=
  !(isGap ch || indicators.contains ch)
    || (!s.cursor.endsAt 1 && (ch = '-' || (s.depth = 0 && (ch = '?' || ch = ':'))))

/-- The next token, which begins with a given character at the position. -/
def token (s : TokenStream) (ch : Char) : Reading TokenStream :=
  let c := s.cursor
  let inFlow := decide (0 < s.depth)
  if ch = '%' ∧ c.column = 0 then s.directive
  else if c.column = 0 ∧ c.hasMarker '-' then s.marker .documentStart
  else if c.column = 0 ∧ c.hasMarker '.' then s.marker .documentEnd
  else if ch = '[' then s.openFlow .flowListStart
  else if ch = '\x7b' then s.openFlow .flowMappingStart
  else if ch = ']' then s.closeFlow .flowListEnd
  else if ch = '\x7d' then s.closeFlow .flowMappingEnd
  else if ch = ',' then s.flowEntry
  else if ch = '-' ∧ c.endsAt 1 then s.blockEntry
  else if ch = '?' ∧ (inFlow || c.endsAt 1) then s.explicitKey
  else if ch = ':' ∧ (inFlow || c.endsAt 1) then s.value
  else if ch = '*' then
    s.property ((anchorName c).map fun p => (.alias p.1, p.2))
  else if ch = '&' then
    s.property ((anchorName c).map fun p => (.anchor p.1, p.2))
  else if ch = '!' then
    s.property ((tagParts c).map fun p => (.tag p.1.1 p.1.2, p.2))
  else if ch = '|' ∧ inFlow = false then s.block false
  else if ch = '>' ∧ inFlow = false then s.block true
  else if ch = '\'' then s.quoted false
  else if ch = '"' then s.quoted true
  else if s.beginsPlain ch then s.plain
  else .error .malformed

/-- The number of tokens that are settled. -/
def settled (s : TokenStream) : Nat := s.keys.foldl (fun n k => min n k.2.number) s.count

/-- The tokens that are left when a fault stops the search: the settled ones, and the fault. -/
def stopped (s : TokenStream) (fault : Fault) : List Token :=
  s.tokens.reverse.take s.settled ++ [.broken fault]

/-- Reaches the end of the text, unless a fault stands there. -/
def atEnd (ending : Option Fault) (s : TokenStream) : Reading TokenStream :=
  match ending with
  | some fault => if s.cursor.rest = [] then .error fault else .ok s
  | none => .ok s

/-- Goes on by one token, and tells whether there are more.  At the end of the text all blocks
are closed. -/
def fetch (ending : Option Fault) (s : TokenStream) : Reading (TokenStream × Bool) := do
  let s ← (s.skipGap (s.cursor.rest.length + 1)).atEnd ending
  let s ← s.dropStale
  let s := s.closeTo s.column
  match s.cursor.peek with
  | none => return (← (s.closeTo (-1)).dropKey, false)
  | some ch =>
    match s.token ch with
    | .ok s => return (← s.atEnd ending, true)
    | .error .cutOff => .error (ending.getD .malformed)
    | .error fault => .error fault

/-- Finds all tokens from the position on.  The fuel bounds the number of tokens read. -/
def run (ending : Option Fault) : Nat → TokenStream → List Token
  | 0, s => s.stopped .malformed
  | fuel + 1, s =>
    match s.dropStale with
    | .error fault => s.stopped fault
    | .ok s =>
      match s.fetch ending with
      | .error fault => s.stopped fault
      | .ok (s, true) => run ending fuel s
      | .ok (s, false) => s.tokens.reverse

end TokenStream

/-- Whether a character may stand in a variables file at all. -/
def isAllowed (c : Char) : Bool :=
  let n := c.toNat
  n = 0x09 || n = 0x0A || n = 0x0D || (0x20 ≤ n && n ≤ 0x7E) || n = 0x85
    || (0xA0 ≤ n && n ≤ 0xD7FF) || (0xE000 ≤ n && n ≤ 0xFFFD) || 0x10000 ≤ n

/-- A text that is read in pieces: all of it that can be read, and what is wrong with the first
piece that cannot. -/
structure Source where
  /-- The text. -/
  text : Text
  /-- The fault at its end. -/
  ending : Option Fault

/-- The text of pieces, up to the first one with a character that must not stand there. -/
def Source.ofPieces : List Text → Option Fault → Source
  | [], ending => ⟨[], ending⟩
  | piece :: rest, ending =>
    if piece.all isAllowed then
      let later := Source.ofPieces rest ending
      ⟨piece ++ later.text, later.ending⟩
    else ⟨[], some .malformed⟩

/-- The tokens of a text, in order. -/
def Token.ofSource (s : Source) : List Token :=
  let c := Cursor.ofText s.text
  let c := if c.peek = some byteOrderMark then c.next else c
  TokenStream.run s.ending (s.text.length + 1) { cursor := c }

end CommentMarkup.Yaml
