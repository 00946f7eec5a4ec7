/-
# Compilation

A document is compiled block by block.  Literal blocks and plain comments are copied,
definitions change the scope and leave nothing, references leave the value of their variable,
and includes leave the files they name.  An included template is a document of its own: it is
compiled with a copy of the scope, so that what it defines is not seen outside.

A block of blanks next to a definition is left out, so that a line which only defines a
variable leaves no empty line behind.

The depth to which documents include one another is bounded by an argument.  Every store has
a bound that is never reached unless documents would include one another for ever.
-/
import CommentMarkup.Include
import CommentMarkup.Scope
import CommentMarkup.Position
import CommentMarkup.Text.Base64

namespace CommentMarkup

/-- The result of compiling a document or a part of it: the text or why there is none, the
scope at the end, and the events on the way. -/
structure Compilation where
  /-- The text, or why there is none. -/
  outcome : Except Failure Text
  /-- The scope at the end, also after a failure. -/
  scope : Scope
  /-- What has happened, in order. -/
  events : List Event

namespace Compilation

/-- A compilation as a step that only yields a text: the scope at its end is forgotten. -/
def toRun (c : Compilation) : Run Text := ⟨c.outcome, c.events⟩

/-- A step that leaves the scope as it is. -/
def ofRun (scope : Scope) (r : Run Text) : Compilation := ⟨r.outcome, scope, r.events⟩

end Compilation

namespace Compile

/-- The wording for a comment that is never closed. -/
def unterminatedMessage : Text := "Invalid comment. Comment not closed.".toList

/-- The wording for the refused compile directive. -/
def unsupportedMessage : Text :=
  ("@compile is not supported. You can however compile the file first then use "
    ++ "@include/@import to import the output file.").toList

/-- The place of an offset in a document. -/
def siteOf (d : Document) (offset : Nat) : Site :=
  let p := Position.ofOffset d.text offset
  ⟨d.file, p.line, p.column⟩

/-- The diagnostic for a comment that is opened at an offset and never closed. -/
def unterminated (d : Document) (offset : Nat) : Diagnostic :=
  (Diagnostic.ofProblem (.unterminatedComment unterminatedMessage)).locate (siteOf d offset)

/-- The text of the bytes of a file in the encoding of the settings.  The codec is asked for only
if there are bytes. -/
def decode (ctx : Context) (bytes : Bytes) : Run Text :=
  if bytes = [] then .ok []
  else
    match ctx.codec? with
    | none => .fail (.unknownEncoding ctx.settings.encoding)
    | some codec =>
      match codec.decode bytes with
      | .ok text => .ok text
      | .error (.refused fault) => .fail (.fault (.undecodable fault))
      | .error (.broken message) => .fail (.brokenCodec message)

/-- The bytes of a file. -/
def readFile (store : Store) (path : Path) : Run Bytes :=
  match store.read path with
  | .ok bytes => ⟨.ok bytes, [.read path]⟩
  | .error fault => ⟨.error (.fault (.io fault)), [.read path]⟩

/-- The document of an included template. -/
def child (ctx : Context) (d : Document) (path : Path) (text : Text) : Document :=
  { text := text, file := path, rootDir := d.rootDir, parents := d.ancestors ctx.cwd }

/-- What an included file leaves: the base64 form of its bytes, its text, or what compiling
it yields if it is a template. -/
def load (ctx : Context) (nested : Document → Scope → Run Text) (d : Document) (scope : Scope)
    (base64 : Bool) (path : Path) : Run Text := do
  let bytes ← readFile ctx.store path
  if base64 then return Base64.encode bytes
  else
    let text ← decode ctx bytes
    if ctx.settings.isTemplate path then
      Run.emit (.noted (.including (d.relative ctx.cwd path)))
      nested (child ctx d path text) scope
    else return text

/-- What an include directive leaves: the files it names, each found before the first one is
loaded, with a newline between them. -/
def inclusion (ctx : Context) (nested : Document → Scope → Run Text) (d : Document)
    (scope : Scope) (specs : List Text) (base64 : Bool) : Run Text :=
  if specs.isEmpty || specs.any List.isEmpty then .fail (.ofProblem (.includeNotFound []))
  else do
    let paths ← Run.forEach (Include.resolve ctx d) specs
    let texts ← Run.forEach (load ctx nested d scope base64) paths
    return List.intercalate ['\n'] texts

/-- What a directive leaves and does to the scope. -/
def directive (ctx : Context) (nested : Document → Scope → Run Text) (d : Document)
    (scope : Scope) : Directive → Compilation
  | .inclusion specs base64 => .ofRun scope (inclusion ctx nested d scope specs base64)
  | .compilation => .ofRun scope (.fail (.ofProblem (.unsupportedDirective unsupportedMessage)))
  | .definition name value => ⟨.ok [], scope.define ctx.settings.nilSentinel name value, []⟩
  | .reference name optional =>
    match scope.resolve name optional with
    | .ok value => ⟨.ok value, scope, []⟩
    | .error problem => ⟨.error (.ofProblem problem), scope, []⟩

/-- Executes the directive of a block.  Failures are not located here. -/
def execute (ctx : Context) (nested : Document → Scope → Run Text) (d : Document)
    (scope : Scope) (b : Block) : Compilation :=
  let c := directive ctx nested d scope b.directive
  { c with events := .noted (.executing b.directive b.start) :: c.events }

/-- What a block leaves.  Failures of a directive are located at its block. -/
def block (ctx : Context) (nested : Document → Scope → Run Text) (d : Document)
    (scope : Scope) (b : Block) : Compilation :=
  if b.isSpecial then
    let c := execute ctx nested d scope b
    { c with outcome := c.outcome.mapError (·.leaving (siteOf d b.start)) }
  else ⟨.ok b.data, scope, []⟩

/-- Whether a block of blanks is left out: it stands next to a definition. -/
def collapses (previous : Option Block) (b : Block) (next : Option Block) : Bool :=
  Text.allBlank b.data && (previous.any (·.isDefinition) || next.any (·.isDefinition))

/-- For every block in order whether it is left out, given the block before them. -/
def collapsing : Option Block → List Block → List Bool
  | _, [] => []
  | previous, b :: rest => collapses previous b rest.head? :: collapsing (some b) rest

/-- Compiles blocks in order, given the block before them. -/
def blocks (ctx : Context) (nested : Document → Scope → Run Text) (d : Document) :
    Option Block → List Block → Scope → Compilation
  | _, [], scope => ⟨.ok [], scope, []⟩
  | previous, b :: rest, scope =>
    -- a block that is left out still counts as the one before the next
    if collapses previous b rest.head? then blocks ctx nested d (some b) rest scope
    else
      let first := block ctx nested d scope b
      match first.outcome with
      | .error _ => first
      | .ok text =>
        let later := blocks ctx nested d (some b) rest first.scope
        ⟨later.outcome.map (text ++ ·), later.scope, first.events ++ later.events⟩

/-- Compiles a document, given how its includes are compiled. -/
def documentWith (ctx : Context) (nested : Document → Scope → Run Text) (d : Document)
    (scope : Scope) : Compilation :=
  match Block.scan d.text with
  | .error offset => ⟨.error (.diagnosed (unterminated d offset)), scope, []⟩
  | .ok bs =>
    let body := blocks ctx nested d none bs scope
    let closing := match body.outcome with
      | .ok _ => [Event.noted (.compiled d.file bs.length)]
      | .error _ => []
    { body with events := .noted (.scanned d.file bs.length) :: (body.events ++ closing) }

/-- Compiles a document in which includes are nested at most to a given depth, itself
included. -/
def within (ctx : Context) : Nat → Document → Scope → Compilation
  | 0, _, scope => ⟨.error .tooDeep, scope, []⟩
  | depth + 1, d, scope =>
    documentWith ctx (fun d' scope' => (within ctx depth d' scope').toRun) d scope

/-- A depth that includes can exceed only if they never end: whenever the documents being
compiled are more than that, one of them has come again with the same ancestors. -/
def depthBound (store : Store) : Nat := (store.capacity + 1) * (store.capacity + 1) + 1

/-- How an include of a document is compiled. -/
def nestedIn (ctx : Context) (d : Document) (scope : Scope) : Run Text :=
  (within ctx (depthBound ctx.store) d scope).toRun

/-- Compiles a document. -/
def document (ctx : Context) (d : Document) (scope : Scope) : Compilation :=
  within ctx (depthBound ctx.store + 1) d scope

/-- Compiles a source text. -/
def source (ctx : Context) (options : Options) (text : Text) : Run Text :=
  (document ctx (options.document text) (.ofList options.initial)).toRun

/-- The diagnostic for a source file that is not text. -/
def undecodableSource (path : Path) (fault : DecodeFault) : Diagnostic :=
  .root { problem := .general
            ("Cannot decode ".toList ++ path ++ ": ".toList ++ fault.message)
          file := some path, line := none, column := none, trace := [] }
    (some (.undecodable fault))

/-- The text of a source file. -/
def readSource (ctx : Context) (path : Path) : Run Text := do
  let bytes ← readFile ctx.store path
  let text := decode ctx bytes
  match text.outcome with
  | .error (.fault (.undecodable fault)) => .fail (.diagnosed (undecodableSource path fault))
  | _ => text

/-- Reads and compiles a file. -/
def file (ctx : Context) (path : Path) (initial : Option (List (Text × Text)))
    (rootDir : Option Path) (parents : Option (List Path)) : Run Text := do
  let text ← readSource ctx path
  source ctx (Options.create initial (some path) rootDir parents) text

end Compile

end CommentMarkup
