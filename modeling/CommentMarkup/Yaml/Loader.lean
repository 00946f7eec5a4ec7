/-
# The YAML reader

The tokens of a file make a node, and the node makes what is loaded.  Everything in the file must
make sense before any of it is used, also what no variable is made of.

Files are read in pieces, as a reader asks for them, and what is wrong with a later piece counts
only if reading gets to it.
-/
import CommentMarkup.Yaml.TokenStream
import CommentMarkup.Yaml.Node
import CommentMarkup.Yaml.Scalar
import CommentMarkup.Text.Codec
import CommentMarkup.Text.Pieces

namespace CommentMarkup.Yaml

/-! ### Values -/

/-- What a node comes to. -/
inductive Content where
  /-- A scalar. -/
  | scalar (value : Scalar)
  /-- A list or a mapping, which is looked into later. -/
  | collection (node : Node)

mutual

/-- The text of a node that is said to be a scalar.  A mapping has the one under the key that
stands in for it. -/
def textOf : Node → Reading Text
  | .scalar _ text => .ok text
  | .list .. => .error .malformed
  | .mapping _ entries => standIn entries

/-- The text under the key that stands in for a mapping. -/
def standIn : List (Node × Node) → Reading Text
  | [] => .error .malformed
  | (key, value) :: rest => if key.kind = .standIn then textOf value else standIn rest

end

/-- The value of a node. -/
def valueOf (n : Node) : Reading Content :=
  match n.kind with
  | .list | .mapping => .ok (.collection n)
  | .merge | .standIn | .unknown => .error .malformed
  | .unread => .error (.odd .unreadKind)
  | kind => do return .scalar (← Scalar.ofText kind (← textOf n))

/-- The key that a node stands for, which must be a scalar. -/
def keyOf (n : Node) : Reading Scalar := do
  match ← valueOf n with
  | .scalar value => return value
  | .collection _ => .error .malformed

/-! ### Mappings -/

/-- A node as the key of a mapping.  The key that stands in for a mapping is a text there. -/
def asKey : Node → Node
  | .scalar .standIn text => .scalar .text text
  | .list .standIn items => .list .text items
  | .mapping .standIn entries => .mapping .text entries
  | n => n

mutual

/-- The entries that a mapping takes over from a node: from a mapping, or from a list of
mappings, of which the last one comes first. -/
def takenOver : Node → Reading (List (Node × Node))
  | .scalar .. => .error .malformed
  | .mapping _ entries => do
    let (taken, own) ← sorted entries
    return taken ++ own
  | .list _ items => takenFrom items

/-- The entries that a mapping takes over from a list of mappings. -/
def takenFrom : List Node → Reading (List (Node × Node))
  | [] => .ok []
  | .mapping _ entries :: rest => do
    let (taken, own) ← sorted entries
    return (← takenFrom rest) ++ (taken ++ own)
  | _ :: _ => .error .malformed

/-- The entries that a mapping takes over, and its own ones. -/
def sorted : List (Node × Node) → Reading (List (Node × Node) × List (Node × Node))
  | [] => .ok ([], [])
  | (key, value) :: rest =>
    if key.kind = .merge then do
      let first ← takenOver value
      let (taken, own) ← sorted rest
      return (first ++ taken, own)
    else do
      let (taken, own) ← sorted rest
      return (taken, (asKey key, value) :: own)

end

/-- The entries of a mapping: those that it takes over come before its own. -/
def entriesOf (entries : List (Node × Node)) : Reading (List (Node × Node)) := do
  let (taken, own) ← sorted entries
  return taken ++ own

/-- A mapping of scalars to nodes, with keys in the order of their first use.  A key that comes
again keeps its first spelling and takes the last value. -/
def putEntry (k : Scalar) (v : Node) : List (Scalar × Node) → List (Scalar × Node)
  | [] => [(k, v)]
  | (k', v') :: rest =>
    if k'.sameKey k then (k', v) :: rest else (k', v') :: putEntry k v rest

/-- The entries of a mapping by the values of their keys. -/
def keyedEntries (entries : List (Node × Node)) : Reading (List (Scalar × Node)) :=
  entries.foldlM (fun found e => do return putEntry (← keyOf e.1) e.2 found) []

/-! ### Checking -/

/-- Checks a node: a scalar must have a value, which is thrown away, and a collection is put
off. -/
def checkNode (n : Node) : Reading (List Node) := do
  match ← valueOf n with
  | .scalar _ => return []
  | .collection n => return [n]

/-- Checks what is inside a collection, and returns the collections there. -/
def checkInside : Node → Reading (List Node)
  | .list .list items => (items.mapM checkNode).map List.flatten
  | .mapping .mapping entries => do
    let found ← (← entriesOf entries).mapM fun (key, value) => do
      let _ ← keyOf key
      checkNode value
    return found.flatten
  | _ => .error .malformed

/-- Checks collections, then the collections inside them, and so on.  The fuel bounds the
number of levels. -/
def checkLevels : Nat → List Node → Reading Unit
  | _, [] => .ok ()
  | 0, _ => .ok ()
  | fuel + 1, ns => do
    let inside ← (ns.mapM checkInside).map List.flatten
    checkLevels fuel inside

/-! ### Loading -/

/-- What is loaded for a node that stands under a key. -/
def loadedValue (n : Node) : Reading Value := do
  match ← valueOf n with
  | .collection _ => return .collection
  | .scalar .null => return .null
  | .scalar s => return .scalar s.written

/-- What is loaded for the root of a file. -/
def dataOf (root : Node) : Reading Data :=
  match root with
  | .mapping .mapping entries => do
    let keyed ← keyedEntries (← entriesOf entries)
    let loaded ← keyed.mapM fun (key, n) => do return (key.written, ← loadedValue n)
    return .mapping loaded
  | n =>
    match valueOf n with
    | .ok (.scalar .null) => .ok .null
    | _ => .ok .other

/-- What is loaded for a text. -/
def ofSource (source : Source) : Reading Data := do
  let tokens := Token.ofSource source
  match ← Node.ofTokens? tokens with
  | none => return .null
  | some root =>
    checkLevels (tokens.length + 1) (← checkNode root)
    dataOf root

/-- The text of a file that is read in pieces, of which the first two are read together. -/
def sourceOf (e : Encoding) (bytes : Bytes) : Source :=
  let (pieces, fault) := Text.pieces e bytes
  let ending := fault.map .undecodable
  match pieces, ending with
  | first :: second :: later, ending => Source.ofPieces ((first ++ second) :: later) ending
  | [_], some fault => Source.ofPieces [] (some fault)
  | pieces, ending => Source.ofPieces pieces ending

/-- The loader that reads files in one of the encodings.  The codec that fails on everything fails
here, too, and complains like a value that is out of range. -/
def load : Loader := fun name bytes =>
  match Encoding.named? name with
  | some e => ofSource (sourceOf e bytes)
  | none => .error (.invalid Codec.undefinedMessage)

end CommentMarkup.Yaml
