/-
# Codecs

A codec reads and writes the files of a site under a name that the settings give.  It may refuse a
run of bytes, or of characters, and says which; it may also fail without pointing at any of them.
What a file holds after a text has been written to it need not be what some decoder would want: a
codec with shift states may leave out the sequence that ends the text.

The codecs that there are is a parameter of whatever reads or writes files (`Codecs`).  Those that
are built in are the three encodings, under all their names, and one that fails on everything.
-/
import CommentMarkup.Text.Encoding

namespace CommentMarkup

/-- Why a codec has no text for some bytes. -/
inductive DecodeFailure where
  /-- It refuses a run of them. -/
  | refused (fault : DecodeFault)
  /-- It fails without pointing at a run, in words of its own. -/
  | broken (message : Text)
deriving DecidableEq, Repr

/-- Why a codec has no bytes for a text. -/
inductive EncodeFailure where
  /-- It refuses a run of its characters. -/
  | refused (fault : EncodeFault)
  /-- It fails without pointing at a run, in words of its own. -/
  | broken (message : Text)
deriving DecidableEq, Repr

/-- A way to read and to write files. -/
structure Codec where
  /-- The text of the bytes of a file, which are at least one. -/
  decode : Bytes → Except DecodeFailure Text
  /-- The bytes that a file holds after a text has been written to it. -/
  write : Text → Except EncodeFailure Bytes

/-- The codecs that there are, by their names. -/
abbrev Codecs := Text → Option Codec

namespace Codec

/-- Whenever a codec fails to decode, it points at a run of bytes. -/
def PointsOut (codec : Codec) : Prop :=
  ∀ bytes message, codec.decode bytes ≠ .error (.broken message)

/-- The codec of an encoding. -/
def ofEncoding (e : Encoding) : Codec where
  decode bytes := (e.decode bytes).mapError .refused
  write text := (e.encode text).mapError .refused

/-- The name of the codec that fails on everything. -/
def undefinedName : Text := "undefined".toList

/-- The wording of the codec that fails on everything. -/
def undefinedMessage : Text := "undefined encoding".toList

/-- The codec that fails on everything.  A failure to decode names it as it has been asked for. -/
def undefined (name : Text) : Codec where
  decode _ := .error (.broken ("decoding with '".toList ++ name
    ++ "' codec failed (UnicodeError: ".toList ++ undefinedMessage ++ ")".toList))
  write _ := .error (.broken undefinedMessage)

/-- The codecs that are built in. -/
def builtIn : Codecs := fun name =>
  if Encoding.lookupForm name = undefinedName then some (undefined name)
  else (Encoding.named? name).map ofEncoding

theorem pointsOut_ofEncoding (e : Encoding) : (ofEncoding e).PointsOut := by
  intro bytes message
  have hdecode : (ofEncoding e).decode bytes = (e.decode bytes).mapError .refused := rfl
  rw [hdecode]
  cases e.decode bytes with
  | ok text => exact nofun
  | error fault => exact nofun

end Codec

end CommentMarkup
