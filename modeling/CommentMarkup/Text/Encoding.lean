/-
# Encodings

Files hold bytes, documents hold characters.  This file has three encodings that join them,
decoders that say exactly which bytes they refuse, and encoders that say exactly which
characters they refuse.

A UTF-8 decoder refuses a run of bytes: the longest beginning of a valid sequence that stands
there, or the single byte that can begin none.
-/
import CommentMarkup.Text.Basic

namespace CommentMarkup

/-- The content of a file. -/
abbrev Bytes := List UInt8

/-- A way to write characters as bytes. -/
inductive Encoding where
  /-- The variable-length encoding of Unicode, in its strict form. -/
  | utf8
  /-- The first 256 characters, one byte each. -/
  | latin1
  /-- The first 128 characters, one byte each. -/
  | ascii
deriving DecidableEq, Repr

/-- What is wrong with a run of bytes. -/
inductive Malformation where
  /-- The byte begins no sequence. -/
  | invalidStart
  /-- A byte that should go on with the sequence does not. -/
  | invalidContinuation
  /-- The bytes end inside the sequence. -/
  | unexpectedEnd
  /-- The byte stands for no character of an encoding that has only so many. -/
  | outOfRange (limit : Nat)
  /-- Anything else, in words of the encoding. -/
  | inWords (wording : Text)
deriving DecidableEq, Repr

/-- The first run of bytes that an encoding refuses. -/
structure DecodeFault where
  /-- The name under which the encoding reports itself. -/
  label : Text
  /-- The number of bytes before the run. -/
  start : Nat
  /-- The refused bytes, at least one. -/
  run : Bytes
  /-- What is wrong with them. -/
  reason : Malformation
deriving DecidableEq, Repr

/-- The first run of characters that an encoding refuses. -/
structure EncodeFault where
  /-- The name under which the encoding reports itself. -/
  label : Text
  /-- The number of characters before the run. -/
  start : Nat
  /-- The refused characters, at least one. -/
  run : Text
  /-- What is wrong with them. -/
  reason : Text
deriving DecidableEq, Repr

/-- A number in hexadecimal, filled up with zeros to a width. -/
def hexadecimal (width n : Nat) : Text :=
  let digits := Nat.toDigits 16 n
  List.replicate (width - digits.length) '0' ++ digits

/-- A number in decimal. -/
def decimal (n : Nat) : Text := Nat.toDigits 10 n

/-- The wording for a code that an encoding does not reach. -/
def outOfRangeMessage (limit : Nat) : Text :=
  "ordinal not in range(".toList ++ decimal limit ++ ")".toList

namespace Encoding

/-- The name under which an encoding reports itself. -/
def label : Encoding → Text
  | .utf8 => "utf-8".toList
  | .latin1 => "latin-1".toList
  | .ascii => "ascii".toList

/-- The names of an encoding, in small letters and with underscores between words. -/
def aliases : Encoding → List Text
  | .utf8 =>
    ["utf_8".toList, "u8".toList, "utf".toList, "utf8".toList, "cp65001".toList]
  | .latin1 =>
    ["latin_1".toList, "iso_8859_1".toList, "iso8859_1".toList, "8859".toList, "cp819".toList,
      "latin".toList, "latin1".toList, "l1".toList]
  | .ascii => ["ascii".toList, "646".toList, "us_ascii".toList]

/-- A name as it is looked up: large letters are small, and a hyphen is an underscore. -/
def lookupForm (name : Text) : Text := name.map fun c => if c = '-' then '_' else c.toLower

/-- The encoding of a name. -/
def named? (name : Text) : Option Encoding :=
  [Encoding.utf8, .latin1, .ascii].find? fun e => e.aliases.contains (lookupForm name)

/-- The wording for a name that no encoding has. -/
def unknownMessage (name : Text) : Text := "unknown encoding: ".toList ++ name

/-- The number of characters that an encoding of one byte each has. -/
def limit : Encoding → Nat
  | .utf8 => 0x110000
  | .latin1 => 0x100
  | .ascii => 0x80

/-- What the first byte of a UTF-8 sequence says about it. -/
structure Lead where
  /-- The bits of the code point that the first byte holds. -/
  bits : Nat
  /-- The number of bytes that follow. -/
  following : Nat
  /-- The least value of the next byte. -/
  low : UInt8
  /-- The greatest value of the next byte. -/
  high : UInt8

/-- The leading bytes of UTF-8.  The narrower ranges exclude sequences that are longer than
needed, the surrogates, and everything above the last code point. -/
def lead? (b : UInt8) : Option Lead :=
  if b ≤ 0x7F then some ⟨b.toNat, 0, 0x80, 0xBF⟩
  else if b < 0xC2 then none
  else if b ≤ 0xDF then some ⟨b.toNat - 0xC0, 1, 0x80, 0xBF⟩
  else if b = 0xE0 then some ⟨0, 2, 0xA0, 0xBF⟩
  else if b = 0xED then some ⟨0xD, 2, 0x80, 0x9F⟩
  else if b ≤ 0xEF then some ⟨b.toNat - 0xE0, 2, 0x80, 0xBF⟩
  else if b = 0xF0 then some ⟨0, 3, 0x90, 0xBF⟩
  else if b ≤ 0xF3 then some ⟨b.toNat - 0xF0, 3, 0x80, 0xBF⟩
  else if b = 0xF4 then some ⟨4, 3, 0x80, 0x8F⟩
  else none

/-- Reads the bytes after the first one: the code point and what follows, or the number of
bytes that still fitted and what is wrong with the next one. -/
def continuation : Nat → UInt8 → UInt8 → Nat → Bytes →
    Except (Nat × Malformation) (Nat × Bytes)
  | 0, _, _, value, rest => .ok (value, rest)
  | _ + 1, _, _, _, [] => .error (0, .unexpectedEnd)
  | n + 1, low, high, value, b :: rest =>
    if low ≤ b ∧ b ≤ high then
      match continuation n 0x80 0xBF (value * 64 + (b.toNat - 0x80)) rest with
      | .ok r => .ok r
      | .error (fitting, reason) => .error (fitting + 1, reason)
    else .error (0, .invalidContinuation)

theorem length_le_of_continuation {n low high value bytes code rest}
    (h : continuation n low high value bytes = .ok (code, rest)) :
    rest.length ≤ bytes.length := by
  induction n generalizing low high value bytes with
  | zero =>
    simp only [continuation, Except.ok.injEq, Prod.mk.injEq] at h
    exact h.2 ▸ Nat.le_refl _
  | succ n ih =>
    cases bytes with
    | nil => simp [continuation] at h
    | cons b bs =>
      simp only [continuation] at h
      split at h
      · split at h
        · next r hr =>
          simp only [Except.ok.injEq] at h
          have := ih (h ▸ hr)
          simp only [List.length_cons]
          omega
        · simp at h
      · simp at h

/-- Decodes UTF-8 bytes that begin at a given offset of the file. -/
def decodeUtf8 (offset : Nat) (bytes : Bytes) : Except DecodeFault Text :=
  match bytes with
  | [] => .ok []
  | b :: tail =>
    match lead? b with
    | none => .error ⟨label .utf8, offset, [b], .invalidStart⟩
    | some l =>
      match _h : continuation l.following l.low l.high l.bits tail with
      | .error (fitting, reason) =>
        .error ⟨label .utf8, offset, b :: tail.take fitting, reason⟩
      | .ok (code, rest) =>
        match decodeUtf8 (offset + (tail.length + 1 - rest.length)) rest with
        | .error fault => .error fault
        | .ok text => .ok (Char.ofNat code :: text)
termination_by bytes.length
decreasing_by
  have := length_le_of_continuation _h
  simp only [List.length_cons]
  omega

/-- Decodes bytes that stand for one character each, all below a limit. -/
def decodeSingle (e : Encoding) (offset : Nat) : Bytes → Except DecodeFault Text
  | [] => .ok []
  | b :: rest =>
    if b.toNat < e.limit then
      match decodeSingle e (offset + 1) rest with
      | .error fault => .error fault
      | .ok text => .ok (Char.ofNat b.toNat :: text)
    else .error ⟨e.label, offset, [b], .outOfRange e.limit⟩

/-- The characters that some bytes stand for. -/
def decode (e : Encoding) (bytes : Bytes) : Except DecodeFault Text :=
  match e with
  | .utf8 => decodeUtf8 0 bytes
  | .latin1 | .ascii => decodeSingle e 0 bytes

/-- The UTF-8 bytes of a text. -/
def utf8Bytes (text : Text) : Bytes := text.flatMap String.utf8EncodeChar

/-- Encodes characters, all below a limit, as one byte each. -/
def encodeSingle (e : Encoding) (offset : Nat) : Text → Except EncodeFault Bytes
  | [] => .ok []
  | c :: rest =>
    if c.toNat < e.limit then
      match encodeSingle e (offset + 1) rest with
      | .error fault => .error fault
      | .ok bytes => .ok (UInt8.ofNat c.toNat :: bytes)
    else
      .error ⟨e.label, offset, c :: rest.takeWhile fun d => decide (e.limit ≤ d.toNat),
        outOfRangeMessage e.limit⟩

/-- The bytes that stand for a text. -/
def encode (e : Encoding) (text : Text) : Except EncodeFault Bytes :=
  match e with
  | .utf8 => .ok (utf8Bytes text)
  | .latin1 | .ascii => encodeSingle e 0 text

end Encoding

/-- The wording of a malformation. -/
def Malformation.message : Malformation → Text
  | .invalidStart => "invalid start byte".toList
  | .invalidContinuation => "invalid continuation byte".toList
  | .unexpectedEnd => "unexpected end of data".toList
  | .outOfRange limit => outOfRangeMessage limit
  | .inWords wording => wording

/-- A run of positions, both ends included. -/
def positionRange (start length : Nat) : Text :=
  decimal start ++ "-".toList ++ decimal (start + length - 1)

/-- The wording of a refusal to decode: a single byte is shown, a longer run only located. -/
def DecodeFault.message (f : DecodeFault) : Text :=
  let place := match f.run with
    | [b] => "byte 0x".toList ++ hexadecimal 2 b.toNat ++ " in position ".toList ++ decimal f.start
    | run => "bytes in position ".toList ++ positionRange f.start run.length
  "'".toList ++ f.label ++ "' codec can't decode ".toList ++ place ++ ": ".toList
    ++ f.reason.message

/-- A character by its code point, in the shortest of the three escape forms that can hold
it. -/
def escapedCodePoint (c : Char) : Text :=
  if c.toNat < 0x100 then "\\x".toList ++ hexadecimal 2 c.toNat
  else if c.toNat < 0x10000 then "\\u".toList ++ hexadecimal 4 c.toNat
  else "\\U".toList ++ hexadecimal 8 c.toNat

/-- The wording of a refusal to encode: a single character is shown, a longer run only
located. -/
def EncodeFault.message (f : EncodeFault) : Text :=
  let place := match f.run with
    | [c] => "character '".toList ++ escapedCodePoint c ++ "' in position ".toList
        ++ decimal f.start
    | run => "characters in position ".toList ++ positionRange f.start run.length
  "'".toList ++ f.label ++ "' codec can't encode ".toList ++ place ++ ": ".toList ++ f.reason

end CommentMarkup
