/-
# Includes

An include directive names a file by a spec.  The spec is read from the root directory or
from the directory of the including document; the file names it may stand for are tried in
order, and the first one that exists is taken.  A document must not be included while it is
being compiled further up.
-/
import CommentMarkup.Settings.Basic
import CommentMarkup.Document
import CommentMarkup.Diagnostic
import CommentMarkup.Store
import CommentMarkup.Log
import CommentMarkup.Text.Codec

namespace CommentMarkup

/-- The result of a step together with the events on the way to it. -/
structure Run (α : Type) where
  /-- What the step yields, or why it fails. -/
  outcome : Except Failure α
  /-- What has happened, in order. -/
  events : List Event

namespace Run

/-- The step that does nothing. -/
def ok (a : α) : Run α := ⟨.ok a, []⟩

/-- The step that fails. -/
def fail (f : Failure) : Run α := ⟨.error f, []⟩

/-- The step that only makes an event. -/
def emit (e : Event) : Run Unit := ⟨.ok (), [e]⟩

/-- One step after another: the second one is not begun if the first one fails. -/
def andThen (r : Run α) (f : α → Run β) : Run β :=
  match r.outcome with
  | .ok a =>
    let next := f a
    ⟨next.outcome, r.events ++ next.events⟩
  | .error e => ⟨.error e, r.events⟩

instance : Monad Run where
  pure := ok
  bind := andThen

/-- A step for every item of a list, in order. -/
def forEach (f : α → Run β) : List α → Run (List β)
  | [] => ok []
  | a :: rest => do
    let b ← f a
    let bs ← forEach f rest
    return b :: bs

end Run

/-- What does not change during a compilation. -/
structure Context where
  /-- Where files are found. -/
  store : Store
  /-- The settings of the site. -/
  settings : Settings
  /-- The current directory. -/
  cwd : Path
  /-- The codecs that there are. -/
  codecs : Codecs

namespace Context

/-- The codec of the settings. -/
def codec? (ctx : Context) : Option Codec := ctx.codecs ctx.settings.encoding

end Context

namespace Include

/-- The path that a spec names in a document, before any extension is tried. -/
def target (cwd : Path) (d : Document) : Text → Path
  | '/' :: spec => Path.absolute cwd (Path.join d.rootDir spec)
  | spec => Path.absolute cwd (Path.join d.baseDir spec)

/-- The paths that a spec may stand for in a document, in the order in which they are
tried. -/
def candidates (settings : Settings) (cwd : Path) (d : Document) (spec : Text) : List Path :=
  let path := target cwd d spec
  (settings.candidateNames (Path.fileName path)).map (Path.join (Path.directory path))

/-- The first of some paths at which there is a file. -/
def firstExisting (store : Store) : List Path → Run (Option Path)
  | [] => .ok none
  | p :: rest =>
    match store.contains p with
    | .error fault => ⟨.error (.fault (.io fault)), [.refused p]⟩
    | .ok true => ⟨.ok (some p), [.probed p true]⟩
    | .ok false =>
      let later := firstExisting store rest
      ⟨later.outcome, .probed p false :: later.events⟩

/-- The file that a spec stands for in a document. -/
def resolve (ctx : Context) (d : Document) (spec : Text) : Run Path := do
  match ← firstExisting ctx.store (candidates ctx.settings ctx.cwd d spec) with
  | none => .fail (.ofProblem (.includeNotFound spec))
  | some path =>
    if path ∈ d.ancestors ctx.cwd then
      .fail (.ofProblem
        (.recursiveInclude (d.relative ctx.cwd d.file) (d.relative ctx.cwd path)))
    else do
      Run.emit (.noted (.resolved spec path))
      return path

end Include

end CommentMarkup
