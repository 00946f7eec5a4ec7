/-
# Faults

What can go wrong below the compiler: the file store refuses an access, or the bytes of a
file are not text.
-/
import CommentMarkup.Text.Encoding

namespace CommentMarkup

/-- Why a file cannot be accessed. -/
inductive IoFault.Kind where
  /-- There is nothing at the path. -/
  | notFound
  /-- There is something at the path already. -/
  | alreadyExists
  /-- A file stands where the path goes through a directory. -/
  | notDirectory
  /-- A directory stands where a file is needed. -/
  | isDirectory
  /-- A component, or the whole path, is longer than the file system can hold. -/
  | nameTooLong
  /-- The access is not allowed. -/
  | denied
  /-- Any other reason. -/
  | other
deriving DecidableEq, Repr

/-- A refused access. -/
structure IoFault where
  /-- The reason. -/
  kind : IoFault.Kind
  /-- The wording of the store that refused. -/
  message : Text
deriving DecidableEq, Repr

/-- A failure that comes from outside the compiler. -/
inductive Fault where
  /-- The store refused an access. -/
  | io (fault : IoFault)
  /-- The bytes of a file are not text. -/
  | undecodable (fault : DecodeFault)
deriving DecidableEq, Repr

/-- The wording of a fault. -/
def Fault.message : Fault → Text
  | .io fault => fault.message
  | .undecodable fault => fault.message

end CommentMarkup
