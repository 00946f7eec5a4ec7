/-
# File trees

A file tree is a whole file system as a value: directories and files, without links and
without permissions.  Looking up a path goes through it component by component, so a path
through a directory that does not exist leads nowhere, even if it goes up again at once.

Changes return the tree also when they fail, since directories that were made on the way to
a failure stay.
-/
import CommentMarkup.Store
import CommentMarkup.Path.Tidy
import CommentMarkup.Text.Quoted

namespace CommentMarkup

/-- The names on the way from the root to a file or directory. -/
abbrev Place := List Text

/-- What can be at a place. -/
inductive FileTree.Entry where
  /-- A file with its bytes. -/
  | file (content : Bytes)
  /-- A directory. -/
  | directory
deriving DecidableEq, Repr

/-- A file system.  The root is always a directory. -/
structure FileTree where
  /-- The places below the root, and what is there. -/
  entries : List (Place × FileTree.Entry)
deriving DecidableEq, Repr

namespace FileTree

/-- The number and the wording of a refusal. -/
def errorText : IoFault.Kind → Text
  | .notFound => "[Errno 2] No such file or directory".toList
  | .alreadyExists => "[Errno 17] File exists".toList
  | .notDirectory => "[Errno 20] Not a directory".toList
  | .isDirectory => "[Errno 21] Is a directory".toList
  | .nameTooLong => "[Errno 36] File name too long".toList
  | .denied => "[Errno 13] Permission denied".toList
  | .other => "[Errno 5] Input/output error".toList

/-- A refusal at a path. -/
def faultAt (kind : IoFault.Kind) (p : Path) : IoFault :=
  ⟨kind, errorText kind ++ ": ".toList ++ Text.quoted p⟩

/-- What is at a place. -/
def find? (t : FileTree) (place : Place) : Option Entry :=
  if place = [] then some .directory else t.entries.lookup place

/-- The greatest length of a component in bytes. -/
def longestName : Nat := 255

/-- The least length in bytes of a path that is too long. -/
def pathLimit : Nat := 4096

/-- Goes on from a place by one component. -/
def step (t : FileTree) (place : Place) (name : Text) : Except IoFault.Kind Place :=
  match t.find? place with
  | none => .error .notFound
  | some (.file _) => .error .notDirectory
  | some .directory =>
    if name = Path.above then .ok place.dropLast
    else if longestName < (Encoding.utf8Bytes name).length then .error .nameTooLong
    else .ok (place ++ [name])

/-- The place that a path leads to, read from a current directory.  Everything before the
last component must be a directory. -/
def locate (t : FileTree) (cwd p : Path) : Except IoFault.Kind Place :=
  if pathLimit ≤ (Encoding.utf8Bytes p).length then .error .nameTooLong
  else
    (Path.components p).foldlM t.step (if Path.isAbsolute p then [] else Path.components cwd)

/-- What a path leads to, if there is something.  Only a name that is too long is an error. -/
def lookup (t : FileTree) (cwd p : Path) : Except IoFault (Option Entry) :=
  match t.locate cwd p with
  | .ok place => .ok (t.find? place)
  | .error .nameTooLong => .error (faultAt .nameTooLong p)
  | .error _ => .ok none

/-- Whether a path leads to a file. -/
def isFile (t : FileTree) (cwd p : Path) : Except IoFault Bool :=
  (t.lookup cwd p).map fun
    | some (.file _) => true
    | _ => false

/-- Whether a path leads to a directory. -/
def isDirectory (t : FileTree) (cwd p : Path) : Except IoFault Bool :=
  (t.lookup cwd p).map fun
    | some .directory => true
    | _ => false

/-- The bytes of the file that a path leads to. -/
def read (t : FileTree) (cwd p : Path) : Except IoFault Bytes :=
  match t.locate cwd p with
  | .error kind => .error (faultAt kind p)
  | .ok place =>
    match t.find? place with
    | none => .error (faultAt .notFound p)
    | some .directory => .error (faultAt .isDirectory p)
    | some (.file content) => .ok content

/-- The tree with something put at a place. -/
def put (t : FileTree) (place : Place) (e : Entry) : FileTree :=
  ⟨(place, e) :: t.entries.filter fun x => decide (x.1 ≠ place)⟩

/-- A change of a file tree, which may fail half-way. -/
abbrev Change := FileTree → Except IoFault Unit × FileTree

/-- Writes a file, in place of the one that is there. -/
def write (cwd p : Path) (content : Bytes) : Change := fun t =>
  match t.locate cwd p with
  | .error kind => (.error (faultAt kind p), t)
  | .ok place =>
    match t.find? place with
    | some .directory => (.error (faultAt .isDirectory p), t)
    | _ => (.ok (), t.put place (.file content))

/-- Makes one directory, whose parent must be there. -/
def makeDirectory (cwd p : Path) : Change := fun t =>
  match t.locate cwd p with
  | .error kind => (.error (faultAt kind p), t)
  | .ok place =>
    match t.find? place with
    | some _ => (.error (faultAt .alreadyExists p), t)
    | none => (.ok (), t.put place .directory)

/-- Makes a directory unless it is there; a refusal counts only if there is none after it. -/
def ensureDirectory (cwd p : Path) : Change := fun t =>
  match makeDirectory cwd p t with
  | (.ok (), t') => (.ok (), t')
  | (.error fault, t') =>
    if fault.kind = .notFound then (.error fault, t')
    else
      -- it is no failure if the directory was there already
      match t'.isDirectory cwd p with
      | .ok true => (.ok (), t')
      | .ok false => (.error fault, t')
      | .error e => (.error e, t')

/-- Makes a directory and all directories above it that are missing.  The components of its
path are given last one first. -/
def ensureDirectories (cwd : Path) (a : Path.Anchor) : List Text → Change
  | [] => ensureDirectory cwd (Path.ofComponents a [])
  | name :: upper => fun t =>
    let p := Path.ofComponents a (name :: upper).reverse
    match ensureDirectory cwd p t with
    | (.error fault, t') =>
      if fault.kind = .notFound then
        -- something above is missing: make that first, then try once more
        match ensureDirectories cwd a upper t' with
        | (.ok (), t'') => ensureDirectory cwd p t''
        | failed => failed
      else (.error fault, t')
    | made => made

/-- Makes the directory at a path and all directories above it. -/
def makeDirectories (cwd p : Path) : Change :=
  ensureDirectories cwd (Path.anchor p) (Path.components p).reverse

/-- A file tree as a file store.  Paths are looked up in their tidy form. -/
def toStore (t : FileTree) (cwd : Path) : Store :=
  { contains := fun p => t.isFile cwd (Path.tidy p)
    read := fun p => t.read cwd (Path.tidy p)
    capacity := 2 * (t.entries.length + 1) * (t.entries.length + 1) }

/-- The tree without files and directories. -/
def empty : FileTree := ⟨[]⟩

/-- The tree with a directory at a place and at every place above it. -/
def withDirectory (t : FileTree) (place : Place) : FileTree :=
  (List.range place.length).foldl
    (fun t n =>
      let upper := place.take (n + 1)
      if (t.find? upper).isSome then t else t.put upper .directory)
    t

/-- The tree with a file at a place, and directories above it. -/
def withFile (t : FileTree) (place : Place) (content : Bytes) : FileTree :=
  (t.withDirectory place.dropLast).put place (.file content)

/-- The tree in which a path leads to an entry, since everything on the way is a directory. -/
def reveal (t : FileTree) (cwd p : Path) (e : Entry) : FileTree :=
  let start := if Path.isAbsolute p then [] else Path.components cwd
  let go := fun (here : FileTree × Place) (name : Text) =>
    (here.1.withDirectory here.2,
      if name = Path.above then here.2.dropLast else here.2 ++ [name])
  let (t, place) := (Path.components p).foldl go (t, start)
  match e with
  | .file content => t.withFile place content
  | .directory => t.withDirectory place

/-- The files of a tree, by their paths. -/
def files (t : FileTree) : List (Path × Bytes) :=
  t.entries.filterMap fun x =>
    match x.2 with
    | .file content => some (Path.ofComponents .root x.1, content)
    | .directory => none

/-- The directories of a tree, by their paths. -/
def directories (t : FileTree) : List Path :=
  t.entries.filterMap fun x =>
    match x.2 with
    | .file _ => none
    | .directory => some (Path.ofComponents .root x.1)

/-- The files of a tree that another one lacks or holds with other bytes. -/
def newFiles (before after : FileTree) : List (Path × Bytes) :=
  after.files.filter fun f => !before.files.contains f

/-- The directories of a tree that another one lacks. -/
def newDirectories (before after : FileTree) : List Path :=
  after.directories.filter fun d => !before.directories.contains d

end FileTree

end CommentMarkup
