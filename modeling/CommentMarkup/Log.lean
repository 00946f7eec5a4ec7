/-
# The log

Every message has a level.  A run is followed at a verbosity, which shows the messages up to
that level; the verbosity has no other effect.
-/
import CommentMarkup.Directive
import CommentMarkup.Path.Basic
import CommentMarkup.Text.Encoding

namespace CommentMarkup

namespace Log

/-- A message with its level. -/
structure Entry where
  /-- The least verbosity that shows the message. -/
  level : Int
  /-- The message. -/
  message : Text
deriving DecidableEq, Repr

/-- Whether a message is shown at a verbosity; without one, nothing is shown. -/
def Entry.isShown (verbosity : Option Int) (e : Entry) : Bool :=
  verbosity.any fun v => decide (e.level ≤ v)

/-- The messages that are shown at a verbosity, in order. -/
def shown (verbosity : Option Int) (entries : List Entry) : List Text :=
  (entries.filter (·.isShown verbosity)).map (·.message)

end Log

/-- What the compiler notes about its work. -/
inductive Note where
  /-- A document has been cut into blocks. -/
  | scanned (file : Path) (blocks : Nat)
  /-- The directive at an offset is being executed. -/
  | executing (directive : Directive) (offset : Nat)
  /-- The file that an include directive names has been found. -/
  | resolved (spec : Text) (path : Path)
  /-- An included template is being compiled. -/
  | including (path : Path)
  /-- A document has been compiled. -/
  | compiled (file : Path) (blocks : Nat)
deriving DecidableEq, Repr

namespace Note

/-- How a document is called in a note. -/
def title (file : Path) : Text := if file = [] then "<string>".toList else file

/-- A note as a message of the log. -/
def entry : Note → Log.Entry
  | .scanned file blocks =>
    ⟨3, "Scanned ".toList ++ decimal blocks ++ " blocks from ".toList ++ title file⟩
  | .executing directive offset =>
    ⟨3, directive.kindName ++ " directive at offset ".toList ++ decimal offset⟩
  | .resolved spec path => ⟨2, "Resolved include '".toList ++ spec ++ "' -> ".toList ++ path⟩
  | .including path => ⟨2, "Compiling include ".toList ++ path⟩
  | .compiled file blocks =>
    ⟨2, "Compiled ".toList ++ title file ++ ": ".toList ++ decimal blocks ++ " blocks".toList⟩

end Note

/-- What a run does, as far as it can be seen from outside. -/
inductive Event where
  /-- It has asked the store whether there is a file. -/
  | probed (path : Path) (found : Bool)
  /-- It has asked the store whether there is a file, and the store has refused to answer. -/
  | refused (path : Path)
  /-- It has asked the store for the bytes of a file. -/
  | read (path : Path)
  /-- The compiler has noted something. -/
  | noted (note : Note)
  /-- The command line has said something. -/
  | said (entry : Log.Entry)
deriving DecidableEq, Repr

namespace Event

/-- Whether an event is a call of the store. -/
def isCall : Event → Bool
  | .probed .. | .refused .. | .read .. => true
  | .noted .. | .said .. => false

/-- The path that the store is asked about in an event. -/
def path? : Event → Option Path
  | .probed path _ | .refused path | .read path => some path
  | .noted .. | .said .. => none

/-- The message of an event, unless it is a call of the store. -/
def entry? : Event → Option Log.Entry
  | .noted note => some note.entry
  | .said entry => some entry
  | .probed .. | .refused .. | .read .. => none

/-- The messages among some events. -/
def entries (events : List Event) : List Log.Entry := events.filterMap entry?

end Event

end CommentMarkup
