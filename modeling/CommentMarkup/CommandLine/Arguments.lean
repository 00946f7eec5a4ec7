/-
# Arguments

The arguments of the command line are flags, some of which take a value.  A value follows its
flag as the next argument, or after an equals sign.  A long flag may be cut short as long as
it can be told from the others, and short flags may be written together behind one hyphen,
where an equals sign after the first one means nothing.

What is none of this makes the whole command line unusable, but only after the flags that ask
for the version or for help have been heard.
-/
import CommentMarkup.Path.Basic
import CommentMarkup.Text.Digit

namespace CommentMarkup.CommandLine

/-- What can be asked for. -/
inductive Flag where
  /-- To show how the program is used. -/
  | help
  /-- To compile this file. -/
  | inputFile
  /-- To take the initial variables from this file. -/
  | variablesFile
  /-- To read includes that begin with `/` from this directory. -/
  | rootDir
  /-- To say more. -/
  | verbosity
  /-- To show the version of the program. -/
  | version
deriving DecidableEq, Repr

namespace Flag

/-- The long spellings. -/
def long : List (Text × Flag) :=
  [("--help".toList, help), ("--inputFile".toList, inputFile),
    ("--variablesFile".toList, variablesFile), ("--rootDir".toList, rootDir),
    ("--verbosity".toList, verbosity), ("--version".toList, version)]

/-- The letters of the short spellings.  None of these flags takes a value. -/
def short : List (Char × Flag) := [('h', help), ('v', verbosity), ('V', version)]

/-- Whether a flag takes a value. -/
def takesValue : Flag → Bool
  | inputFile | variablesFile | rootDir => true
  | help | verbosity | version => false

end Flag

/-- An argument by its form. -/
inductive Word where
  /-- A long flag, and the value after its equals sign. -/
  | long (flag : Flag) (value : Option Text)
  /-- A short flag, and what is written together with it. -/
  | short (flag : Flag) (tail : Option Text)
  /-- An argument that can be a value. -/
  | plain (text : Text)
  /-- An argument that looks like a flag and is none. -/
  | stray
deriving DecidableEq, Repr

namespace Word

/-- Whether what follows a hyphen is a number, which then is no flag.  A line break after it
is let pass. -/
def isNumber (s : Text) : Bool :=
  let s := if s.getLast? = some '\n' then s.dropLast else s
  match s.dropWhile Text.isDecimalDigit with
  | [] => s ≠ []
  | '.' :: fraction => fraction ≠ [] && fraction.all Text.isDecimalDigit
  | _ => false

/-- The form of an argument that begins with a hyphen and is no flag. -/
def ofUnknown (s : Text) : Word :=
  if isNumber (s.drop 1) || s.contains ' ' then .plain s else .stray

/-- The form of an argument that begins with two hyphens: the flag whose long spelling begins
with it up to its equals sign.  There is none if several flags do. -/
def ofLong (s : Text) : Option Word :=
  let value := match s.dropWhile (· ≠ '=') with
    | _ :: value => some value
    | [] => none
  match Flag.long.filter fun f => (s.takeWhile (· ≠ '=')).isPrefixOf f.1 with
  | [] => some (ofUnknown s)
  | [(_, flag)] => some (.long flag value)
  | _ => none

/-- What is written together with a short flag, given all that follows its letter. -/
def tailOf : Text → Option Text
  | [] => none
  | '=' :: tail => some tail
  | tail => some tail

/-- The form of an argument, if it is not ambiguous. -/
def ofArgument (s : Text) : Option Word :=
  match s with
  | '-' :: '-' :: _ => ofLong s
  | '-' :: c :: rest =>
    match Flag.short.lookup c with
    | some flag => some (.short flag (tailOf rest))
    | none => some (ofUnknown s)
  | _ => some (.plain s)

/-- The forms of all arguments.  After two hyphens by themselves nothing is a flag. -/
def ofArguments : List Text → Option (List Word)
  | [] => some []
  | s :: rest =>
    if s = ['-', '-'] then some (.stray :: rest.map Word.plain)
    else do
      let word ← ofArgument s
      let words ← ofArguments rest
      return word :: words

end Word

/-- What the arguments choose. -/
structure Choices where
  /-- The file to be compiled. -/
  inputFile : Option Path := none
  /-- The file of initial variables. -/
  variablesFile : Option Path := none
  /-- The root directory of the site. -/
  rootDir : Option Path := none
  /-- The verbosity. -/
  verbosity : Nat := 1
deriving DecidableEq, Repr

/-- What is to be done. -/
inductive Request where
  /-- To compile a file. -/
  | build (inputFile : Path) (choices : Choices)
  /-- To show the version. -/
  | version
  /-- To show how the program is used. -/
  | help
  /-- Nothing, since the arguments make no sense. -/
  | misuse
deriving DecidableEq, Repr

namespace Choices

/-- The choices with the value of a flag; the last value counts. -/
def withValue (c : Choices) (flag : Flag) (value : Text) : Choices :=
  match flag with
  | .inputFile => { c with inputFile := some value }
  | .variablesFile => { c with variablesFile := some value }
  | .rootDir => { c with rootDir := some value }
  | .help | .verbosity | .version => c

/-- Hears flags without values in order.  The first one that asks for something else than
compiling settles the request. -/
def hear (c : Choices) : List Flag → Except Request Choices
  | [] => .ok c
  | .help :: _ => .error .help
  | .version :: _ => .error .version
  | .verbosity :: rest => hear { c with verbosity := c.verbosity + 1 } rest
  | _ :: rest => hear c rest

/-- The request of choices after the last argument: a file is needed, and nothing strange may
have been found. -/
def request (c : Choices) (strange : Bool) : Request :=
  match c.inputFile with
  | some file => if strange then .misuse else .build file c
  | none => .misuse

end Choices

/-- The flags that are written together after a first one.  There must be one if there is a
tail at all, and every letter of it must be a flag. -/
def cluster : Option Text → Option (List Flag)
  | none => some []
  | some [] => none
  | some tail => tail.mapM fun c => Flag.short.lookup c

/-- Goes through the arguments, given the choices before them and whether something strange
has been found. -/
def requestOfWords : Choices → Bool → List Word → Request
  | c, strange, [] => c.request strange
  | c, strange, .long flag (some value) :: rest =>
    if flag.takesValue then requestOfWords (c.withValue flag value) strange rest else .misuse
  | c, strange, .long flag none :: rest =>
    if flag.takesValue then
      match rest with
      | .plain value :: rest => requestOfWords (c.withValue flag value) strange rest
      | _ => .misuse
    else
      match c.hear [flag] with
      | .error request => request
      | .ok c => requestOfWords c strange rest
  | c, strange, .short flag tail :: rest =>
    match cluster tail with
    | none => .misuse
    | some flags =>
      match c.hear (flag :: flags) with
      | .error request => request
      | .ok c => requestOfWords c strange rest
  | c, _, .plain _ :: rest => requestOfWords c true rest
  | c, _, .stray :: rest => requestOfWords c true rest

/-- What the arguments ask for. -/
def Request.ofArguments (arguments : List Text) : Request :=
  match Word.ofArguments arguments with
  | none => .misuse
  | some words => requestOfWords {} false words

end CommentMarkup.CommandLine
