/-
# Tokens

The tokens of a variables file.  Indentation has become tokens of its own, and every key has
been marked, so that what follows no longer depends on columns.

A fault counts only if reading gets to it, so it stands among the tokens.
-/
import CommentMarkup.Yaml.Cursor

namespace CommentMarkup.Yaml

/-- What a directive line says about the document after it. -/
inductive Declaration where
  /-- The first number of its version. -/
  | version (major : Nat)
  /-- What a handle stands for in its tags. -/
  | handle (name : Text) (meaning : Text)
  /-- Nothing that matters. -/
  | other
deriving DecidableEq, Repr

/-- A token. -/
inductive Token where
  /-- A directive line. -/
  | directive (declaration : Declaration)
  /-- The marker before a document. -/
  | documentStart
  /-- The marker after a document. -/
  | documentEnd
  /-- The beginning of a list that is written by indentation. -/
  | blockListStart
  /-- The beginning of a mapping that is written by indentation. -/
  | blockMappingStart
  /-- The end of a list or mapping that is written by indentation. -/
  | blockEnd
  /-- An opening bracket. -/
  | flowListStart
  /-- A closing bracket. -/
  | flowListEnd
  /-- An opening brace. -/
  | flowMappingStart
  /-- A closing brace. -/
  | flowMappingEnd
  /-- The dash before an item. -/
  | blockEntry
  /-- The comma after an item. -/
  | flowEntry
  /-- The beginning of a key. -/
  | key
  /-- The colon before a value. -/
  | value
  /-- A reference to a marked node. -/
  | alias (name : Text)
  /-- A mark on a node. -/
  | anchor (name : Text)
  /-- A tag on a node: its handle, if it has one, and its suffix. -/
  | tag (handle : Option Text) (suffix : Text)
  /-- A scalar, and whether it is written without quotes. -/
  | scalar (text : Text) (plain : Bool)
  /-- The place from which on there are no tokens, since a fault stands there. -/
  | broken (fault : Fault)
deriving DecidableEq, Repr

end CommentMarkup.Yaml
