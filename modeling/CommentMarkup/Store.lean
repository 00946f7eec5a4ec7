/-
# File stores

The compiler asks a store two things: whether there is a file at a path, and what bytes it
holds.  A store also bounds the number of paths at which it has files, which bounds how
deeply documents can include one another.

A memory store holds the files of a site as a list, and can refuse to read some of them.
-/
import CommentMarkup.Fault
import CommentMarkup.Path.Basic

namespace CommentMarkup

/-- Where the compiler finds files. -/
structure Store where
  /-- Whether there is a file at a path. -/
  contains : Path → Except IoFault Bool
  /-- The bytes of the file at a path. -/
  read : Path → Except IoFault Bytes
  /-- A bound for the number of paths at which there are files. -/
  capacity : Nat

/-- A store that is held in memory.  Paths are compared as they are written. -/
structure MemoryStore where
  /-- The paths and their bytes, each path once. -/
  files : List (Path × Bytes)
  /-- The paths that cannot be read, and how they refuse. -/
  broken : List (Path × IoFault)

namespace MemoryStore

/-- Whether there is a file at a path. -/
def contains (m : MemoryStore) (p : Path) : Bool := (m.files.lookup p).isSome

/-- The bytes of the file at a path. -/
def read (m : MemoryStore) (p : Path) : Except IoFault Bytes :=
  match m.broken.lookup p with
  | some fault => .error fault
  | none =>
    match m.files.lookup p with
    | some bytes => .ok bytes
    | none => .error ⟨.notFound, p⟩

/-- Puts a file at a path. -/
def put (m : MemoryStore) (p : Path) (bytes : Bytes) : MemoryStore :=
  { m with files := (p, bytes) :: m.files.filter fun f => decide (f.1 ≠ p) }

/-- Removes the file at a path. -/
def remove (m : MemoryStore) (p : Path) : MemoryStore :=
  { m with files := m.files.filter fun f => decide (f.1 ≠ p) }

/-- A memory store as a file store. -/
def toStore (m : MemoryStore) : Store :=
  { contains := fun p => .ok (m.contains p)
    read := m.read
    capacity := m.files.length }

end MemoryStore

end CommentMarkup
