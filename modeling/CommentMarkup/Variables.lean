/-
# Variables files

The initial variables of a site can be given as a YAML mapping of names to scalars.  Names and
values become texts in their written forms, and null becomes the empty text.
-/
import CommentMarkup.Yaml.Data
import CommentMarkup.Text.Codec
import CommentMarkup.Scope
import CommentMarkup.FileTree

namespace CommentMarkup

/-- Why the variables cannot be loaded. -/
inductive VariablesFault where
  /-- The file cannot be read, or is not text. -/
  | fault (fault : Fault)
  /-- The encoding of the settings does not exist. -/
  | unknownEncoding (label : Text)
  /-- The file is not YAML. -/
  | malformed
  /-- A value, or the shape of the whole, makes no sense; the text says how. -/
  | invalid (message : Text)
  /-- A value cannot be had at all. -/
  | odd (oddity : Yaml.Oddity)
deriving DecidableEq, Repr

/-- The wording of a failure to load variables. -/
def VariablesFault.message : VariablesFault → Text
  | .fault f => f.message
  | .unknownEncoding label => Encoding.unknownMessage label
  | .malformed => []
  | .invalid message => message
  | .odd oddity => oddity.message

/-- A failure to read as a failure to load. -/
def VariablesFault.ofReading : Yaml.Fault → VariablesFault
  | .malformed | .cutOff => .malformed
  | .invalid message => .invalid message
  | .odd oddity => .odd oddity
  | .undecodable f => .fault (.undecodable f)

namespace Variables

open Yaml

/-- Why a whole file is refused that is not a mapping. -/
def notMapping (path : Path) : VariablesFault :=
  .invalid (path ++ " must contain a mapping of variable names to values".toList)

/-- Why a variable is refused that is not a scalar. -/
def notScalar (path : Path) (name : Text) : VariablesFault :=
  .invalid ("Variable '".toList ++ name ++ "' in ".toList ++ path ++ " must be a scalar".toList)

/-- The variables of the entries of a mapping. -/
def ofEntries (path : Path) :
    List (Reading Text × Value) → Scope → Except VariablesFault Scope
  | [], scope => .ok scope
  | (key, .null) :: rest, scope => do
    let name ← key.mapError .ofReading
    ofEntries path rest (scope.put name [])
  | (key, .collection) :: _, _ => do
    let name ← key.mapError .ofReading
    .error (notScalar path name)
  | (key, .scalar written) :: rest, scope => do
    -- the value is written before its name is
    let value ← written.mapError .ofReading
    let name ← key.mapError .ofReading
    ofEntries path rest (scope.put name value)

/-- The variables of what has been loaded.  The path is only named in messages. -/
def ofData (path : Path) : Data → Except VariablesFault Scope
  | .null => .ok Scope.empty
  | .mapping entries => ofEntries path entries Scope.empty
  | .other => .error (notMapping path)

/-- Loads the variables of a file. -/
def load (codecs : Codecs) (loader : Loader) (encoding : Text) (tree : FileTree) (cwd path : Path) :
    Except VariablesFault Scope :=
  match tree.read cwd path with
  | .error fault => .error (.fault (.io fault))
  | .ok bytes =>
    match codecs encoding with
    | none => .error (.unknownEncoding encoding)
    | some _ => do
      let loaded ← (loader encoding bytes).mapError .ofReading
      ofData path loaded

end Variables

end CommentMarkup
