/-
# Reading in pieces

A file of text can be read in pieces of 4096 characters.  Its bytes are fetched and decoded in
portions, of 8192 bytes or more, so a piece that cannot be decoded does not take back the
pieces before it, and the position of a refused byte is counted from the beginning of its
portion.  A sequence that a portion breaks off is put before the next one.

A carriage return, also with a line feed behind it, is read as one line feed.
-/
import CommentMarkup.Text.Encoding

namespace CommentMarkup.Text

/-- Line ends as they are read: each is one line feed. -/
def withLineFeeds : Text → Text
  | '\r' :: '\n' :: rest => '\n' :: withLineFeeds rest
  | '\r' :: rest => '\n' :: withLineFeeds rest
  | c :: rest => c :: withLineFeeds rest
  | [] => []

/-- A file that is being read. -/
structure PieceReader where
  /-- The encoding of the file. -/
  encoding : Encoding
  /-- The bytes that have not been fetched. -/
  bytes : Bytes
  /-- The beginning of a sequence at the end of the last portion. -/
  unfinished : Bytes := []
  /-- Whether the last portion ended in a carriage return. -/
  afterReturn : Bool := false
  /-- The characters that have been decoded and not handed out. -/
  ready : Text := []
  /-- The length of the last portion in bytes. -/
  lastBytes : Nat := 0
  /-- The length of the last portion in characters. -/
  lastChars : Nat := 0

namespace PieceReader

/-- The number of characters of a piece. -/
def pieceSize : Nat := 4096

/-- The least number of bytes of a portion. -/
def portionSize : Nat := 8192

/-- The number of bytes that are fetched to get some characters.  It follows the number of
bytes that a character took in the last portion. -/
def portionFor (r : PieceReader) (chars : Nat) : Nat :=
  if r.lastChars = 0 then max portionSize chars
  else max portionSize (max (r.lastBytes * chars / r.lastChars) chars)

/-- Decodes a portion up to a sequence that breaks off at its end.  At the end of the file
nothing may break off. -/
def decodePortion (e : Encoding) (atEnd : Bool) (bytes : Bytes) :
    Except DecodeFault (Text × Bytes) :=
  match e.decode bytes with
  | .ok text => .ok (text, [])
  | .error fault =>
    if fault.reason = .unexpectedEnd ∧ atEnd = false then
      (e.decode (bytes.take fault.start)).map fun text => (text, bytes.drop fault.start)
    else .error fault

/-- Fetches a portion, given the number of characters that are still wanted. -/
def fetch (r : PieceReader) (chars : Nat) : Except DecodeFault PieceReader := do
  let portion := r.bytes.take (r.portionFor chars)
  let atEnd := portion.isEmpty
  let (text, unfinished) ← decodePortion r.encoding atEnd (r.unfinished ++ portion)
  let text := if r.afterReturn && (atEnd || !text.isEmpty) then '\r' :: text else text
  -- a line feed may still follow a carriage return
  let heldBack := !atEnd && text.getLast? == some '\r'
  let text := withLineFeeds (if heldBack then text.dropLast else text)
  return { r with
    bytes := r.bytes.drop portion.length, unfinished,
    afterReturn := heldBack || (r.afterReturn && text.isEmpty && !atEnd),
    ready := r.ready ++ text, lastBytes := portion.length, lastChars := text.length }

/-- Whether nothing is left to fetch. -/
def isDone (r : PieceReader) : Bool :=
  r.bytes.isEmpty && r.unfinished.isEmpty && !r.afterReturn

/-- Fetches portions until a whole piece is ready or the file ends.  The fuel bounds their
number. -/
def fill : Nat → PieceReader → Except DecodeFault PieceReader
  | 0, r => .ok r
  | fuel + 1, r =>
    if pieceSize ≤ r.ready.length || r.isDone then .ok r
    else do fill fuel (← r.fetch (pieceSize - r.ready.length))

/-- The pieces of a file in order, up to the first one that cannot be decoded, and what is
wrong with that one.  The fuel bounds their number. -/
def pieces : Nat → PieceReader → List Text × Option DecodeFault
  | 0, _ => ([], none)
  | fuel + 1, r =>
    match r.fill (r.bytes.length + 2) with
    | .error fault => ([], some fault)
    | .ok r =>
      if r.ready.isEmpty then ([], none)
      else
        let (later, fault) := pieces fuel { r with ready := r.ready.drop pieceSize }
        (r.ready.take pieceSize :: later, fault)

end PieceReader

/-- The pieces of a file. -/
def pieces (e : Encoding) (bytes : Bytes) : List Text × Option DecodeFault :=
  PieceReader.pieces (bytes.length + 1) { encoding := e, bytes := bytes }

end CommentMarkup.Text
