/-
# Nodes

A node is a scalar, a list or a mapping.  Nodes are put together from tokens; references to
marked nodes are replaced by what they refer to on the way.
-/
import CommentMarkup.Yaml.Token
import CommentMarkup.Yaml.Kind

namespace CommentMarkup.Yaml

/-- A value of a variables file as it is written. -/
inductive Node where
  /-- A scalar. -/
  | scalar (kind : Kind) (text : Text)
  /-- A list. -/
  | list (kind : Kind) (items : List Node)
  /-- A mapping, with its keys in order. -/
  | mapping (kind : Kind) (entries : List (Node × Node))

/-- What is left to read, and what has been declared so far. -/
structure NodeStream where
  /-- The tokens from here on. -/
  tokens : List Token
  /-- The handles of tags and what they stand for. -/
  handles : List (Text × Text)
  /-- The marked nodes. -/
  anchors : List (Text × Node) := []

namespace Node

/-- The kind of a node. -/
def kind : Node → Kind
  | scalar k _ | list k _ | mapping k _ => k

/-- The scalar for a node that is left out. -/
def missing : Node := .scalar .null []

/-- A scalar, given its tag and whether it is plain. -/
def ofScalar (tag : Option Text) (plain : Bool) (text : Text) : Node :=
  .scalar (Kind.ofScalar tag plain text) text

/-- A list, given its tag. -/
def ofItems (tag : Option Text) (items : List Node) : Node :=
  .list (Kind.ofCollection .list tag) items

/-- A mapping, given its tag. -/
def ofEntries (tag : Option Text) (entries : List (Node × Node)) : Node :=
  .mapping (Kind.ofCollection .mapping tag) entries

/-- Why tokens cannot be read on: there is a fault, or the next token does not belong here. -/
def refusal : List Token → Fault
  | .broken fault :: _ => fault
  | _ => .malformed

/-- The handles that every document has. -/
def usualHandles : List (Text × Text) := [(['!'], ['!']), (['!', '!'], Kind.standardTag)]

/-- The full form of a tag. -/
def fullTag (s : NodeStream) (handle : Option Text) (suffix : Text) : Reading Text :=
  match handle with
  | none => .ok suffix
  | some h =>
    match s.handles.lookup h with
    | some meaning => .ok (meaning ++ suffix)
    | none => .error .malformed

/-- The anchor and the tag before a node, in either order. -/
def properties (s : NodeStream) : Reading ((Option Text × Option Text) × NodeStream) :=
  match s.tokens with
  | .anchor a :: .tag h t :: rest => do
    return ((some a, some (← fullTag s h t)), { s with tokens := rest })
  | .tag h t :: .anchor a :: rest => do
    return ((some a, some (← fullTag s h t)), { s with tokens := rest })
  | .anchor a :: rest => .ok ((some a, none), { s with tokens := rest })
  | .tag _ _ :: .broken fault :: _ => .error fault
  | .tag h t :: rest => do return ((none, some (← fullTag s h t)), { s with tokens := rest })
  | _ => .ok ((none, none), s)

/-- Marks a node; a mark must not be given twice. -/
def mark (anchor : Option Text) (n : Node) (s : NodeStream) : Reading NodeStream :=
  match anchor with
  | none => .ok s
  | some a =>
    if (s.anchors.lookup a).isSome then .error .malformed
    else .ok { s with anchors := (a, n) :: s.anchors }

/-- Gives an existing mark to another node. -/
def remark (anchor : Option Text) (n : Node) (s : NodeStream) : NodeStream :=
  match anchor with
  | none => s
  | some a => { s with anchors := (a, n) :: s.anchors.filter fun x => decide (x.1 ≠ a) }

/-- Whether a block item or value is left out before the next token. -/
def endsBlock (inMapping : Bool) : List Token → Bool
  | [] => false
  | .key :: _ | .value :: _ => inMapping
  | .blockEntry :: _ => !inMapping
  | .blockEnd :: _ => true
  | _ => false

/-- Whether a value inside brackets is left out before the next token. -/
def endsFlow (closing : Token) : List Token → Bool
  | [] => false
  | t :: _ => t = .flowEntry || t = closing

/-- The node of an anchor and a tag by themselves, of which there must be one. -/
def bare (anchor tag : Option Text) (s : NodeStream) : Reading (Node × NodeStream) :=
  match s.tokens with
  | .broken fault :: _ => .error fault
  | _ =>
    if anchor.isSome || tag.isSome then do
      let n := ofScalar tag true []
      return (n, ← mark anchor n s)
    else .error .malformed

mutual

/-- Reads a node.  Inside brackets there are no block collections, and a list without an
indentation of its own can only be the value of a mapping. -/
def node (isBlock unindented : Bool) : Nat → NodeStream → Reading (Node × NodeStream)
  | 0, _ => .error .malformed
  | fuel + 1, s =>
    match s.tokens with
    | .alias name :: rest =>
      match s.anchors.lookup name with
      | some n => .ok (n, { s with tokens := rest })
      | none => .error .malformed
    | _ => do
      let ((anchor, tag), s) ← properties s
      let after (rest : List Token) : NodeStream := { s with tokens := rest }
      match s.tokens with
      | .scalar text plain :: rest =>
        let n := ofScalar tag plain text
        return (n, ← mark anchor n (after rest))
      | .flowListStart :: rest =>
        let s ← mark anchor (ofItems tag []) (after rest)
        let (items, s) ← flowList true fuel s
        return (ofItems tag items, remark anchor (ofItems tag items) s)
      | .flowMappingStart :: rest =>
        let s ← mark anchor (ofEntries tag []) (after rest)
        let (entries, s) ← flowMapping true fuel s
        return (ofEntries tag entries, remark anchor (ofEntries tag entries) s)
      | .blockEntry :: _ =>
        if unindented then
          let s ← mark anchor (ofItems tag []) s
          let (items, s) ← unindentedList fuel s
          return (ofItems tag items, remark anchor (ofItems tag items) s)
        else bare anchor tag s
      | .blockListStart :: rest =>
        if isBlock then
          let s ← mark anchor (ofItems tag []) (after rest)
          let (items, s) ← blockList fuel s
          return (ofItems tag items, remark anchor (ofItems tag items) s)
        else bare anchor tag s
      | .blockMappingStart :: rest =>
        if isBlock then
          let s ← mark anchor (ofEntries tag []) (after rest)
          let (entries, s) ← blockMapping fuel s
          return (ofEntries tag entries, remark anchor (ofEntries tag entries) s)
        else bare anchor tag s
      | _ => bare anchor tag s

/-- Reads the items of an indented list and its end. -/
def blockList : Nat → NodeStream → Reading (List Node × NodeStream)
  | 0, _ => .error .malformed
  | fuel + 1, s =>
    match s.tokens with
    | .blockEntry :: rest => do
      let s := { s with tokens := rest }
      let (item, s) ←
        if endsBlock false rest then pure (missing, s) else node true false fuel s
      let (items, s) ← blockList fuel s
      return (item :: items, s)
    | .blockEnd :: rest => .ok ([], { s with tokens := rest })
    | tokens => .error (refusal tokens)

/-- Reads the items of a list that stands at the column of the mapping around it. -/
def unindentedList : Nat → NodeStream → Reading (List Node × NodeStream)
  | 0, _ => .error .malformed
  | fuel + 1, s =>
    match s.tokens with
    | .blockEntry :: rest => do
      let s := { s with tokens := rest }
      let (item, s) ←
        if endsBlock false rest || endsBlock true rest then pure (missing, s)
        else node true false fuel s
      let (items, s) ← unindentedList fuel s
      return (item :: items, s)
    | _ => .ok ([], s)

/-- Reads the entries of an indented mapping and its end. -/
def blockMapping : Nat → NodeStream → Reading (List (Node × Node) × NodeStream)
  | 0, _ => .error .malformed
  | fuel + 1, s =>
    match s.tokens with
    | .key :: rest => do
      let s := { s with tokens := rest }
      let (k, s) ← if endsBlock true rest then pure (missing, s) else node true true fuel s
      let (v, s) ← match s.tokens with
        | .value :: rest =>
          let s := { s with tokens := rest }
          if endsBlock true rest then pure (missing, s) else node true true fuel s
        | _ => pure (missing, s)
      let (entries, s) ← blockMapping fuel s
      return ((k, v) :: entries, s)
    | .blockEnd :: rest => .ok ([], { s with tokens := rest })
    | tokens => .error (refusal tokens)

/-- Reads the value of a key inside brackets, which may be left out. -/
def flowValue (closing : Token) : Nat → NodeStream → Reading (Node × NodeStream)
  | 0, _ => .error .malformed
  | fuel + 1, s =>
    match s.tokens with
    | .value :: rest =>
      let s := { s with tokens := rest }
      if endsFlow closing rest then .ok (missing, s) else node false false fuel s
    | _ => .ok (missing, s)

/-- Reads the key of an entry inside brackets, which may be left out. -/
def flowKey (closing : Token) : Nat → NodeStream → Reading (Node × NodeStream)
  | 0, _ => .error .malformed
  | fuel + 1, s =>
    if endsFlow closing s.tokens || s.tokens.head? = some .value then .ok (missing, s)
    else node false false fuel s

/-- Reads the items of a list in brackets and its closing bracket.  An item may be a key with
its value. -/
def flowList (isFirst : Bool) : Nat → NodeStream → Reading (List Node × NodeStream)
  | 0, _ => .error .malformed
  | fuel + 1, s =>
    match s.tokens with
    | .flowListEnd :: rest => .ok ([], { s with tokens := rest })
    | tokens => do
      let rest ← match isFirst, tokens with
        | true, _ => pure tokens
        | false, .flowEntry :: rest => pure rest
        | false, _ => .error (refusal tokens)
      let s := { s with tokens := rest }
      match rest with
      | .flowListEnd :: rest => return ([], { s with tokens := rest })
      | .key :: rest =>
        let (k, s) ← flowKey .flowListEnd fuel { s with tokens := rest }
        let (v, s) ← flowValue .flowListEnd fuel s
        let (items, s) ← flowList false fuel s
        return (ofEntries none [(k, v)] :: items, s)
      | _ =>
        let (item, s) ← node false false fuel s
        let (items, s) ← flowList false fuel s
        return (item :: items, s)

/-- Reads the entries of a mapping in braces and its closing brace.  An entry may be a key
without a value. -/
def flowMapping (isFirst : Bool) :
    Nat → NodeStream → Reading (List (Node × Node) × NodeStream)
  | 0, _ => .error .malformed
  | fuel + 1, s =>
    match s.tokens with
    | .flowMappingEnd :: rest => .ok ([], { s with tokens := rest })
    | tokens => do
      let rest ← match isFirst, tokens with
        | true, _ => pure tokens
        | false, .flowEntry :: rest => pure rest
        | false, _ => .error (refusal tokens)
      let s := { s with tokens := rest }
      match rest with
      | .flowMappingEnd :: rest => return ([], { s with tokens := rest })
      | .key :: rest =>
        let (k, s) ← flowKey .flowMappingEnd fuel { s with tokens := rest }
        let (v, s) ← flowValue .flowMappingEnd fuel s
        let (entries, s) ← flowMapping false fuel s
        return ((k, v) :: entries, s)
      | _ =>
        let (k, s) ← node false false fuel s
        let (entries, s) ← flowMapping false fuel s
        return ((k, missing) :: entries, s)

end

/-- Reads the directives before a document, given the handles declared before.  At most one
may give a version, whose first number must be one, and no handle may be declared twice. -/
def directives (isVersioned : Bool) (declared : List (Text × Text)) :
    List Token → Reading (List (Text × Text) × List Token)
  | .directive .other :: rest => directives isVersioned declared rest
  | .directive (.version major) :: rest =>
    if isVersioned || major ≠ 1 then .error .malformed else directives true declared rest
  | .directive (.handle name meaning) :: rest =>
    if (declared.lookup name).isSome then .error .malformed
    else directives isVersioned ((name, meaning) :: declared) rest
  | tokens => .ok (declared, tokens)

/-- Drops the markers after a document. -/
def afterMarkers : List Token → List Token
  | .documentEnd :: rest => afterMarkers rest
  | tokens => tokens

/-- Reads a document that begins with a marker, after its directives. -/
def marked (fuel : Nat) (tokens : List Token) : Reading (Node × NodeStream) := do
  match ← directives false [] tokens with
  | (declared, .documentStart :: rest) =>
    let s : NodeStream := { tokens := rest, handles := declared ++ usualHandles }
    match rest with
    | [] | .directive _ :: _ | .documentStart :: _ | .documentEnd :: _ => return (missing, s)
    | _ => node true false fuel s
  | (_, rest) => .error (refusal rest)

/-- Checks that nothing but markers follows a document.  The directives of another document
are still read. -/
def checkRest (tokens : List Token) : Reading Unit :=
  match afterMarkers tokens with
  | [] => .ok ()
  | rest => do
    let (_, rest) ← directives false [] rest
    .error (refusal rest)

/-- The only document of a list of tokens, if there is one. -/
def ofTokens? (tokens : List Token) : Reading (Option Node) := do
  let fuel := 2 * tokens.length + 2
  match tokens with
  | [] => return none
  | .directive _ :: _ | .documentStart :: _ =>
    let (n, s) ← marked fuel tokens
    checkRest s.tokens
    return some n
  | _ =>
    let (n, s) ← node true false fuel { tokens := tokens, handles := usualHandles }
    checkRest s.tokens
    return some n

end Node

end CommentMarkup.Yaml
