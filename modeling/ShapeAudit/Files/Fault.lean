import ShapeAudit.Text

/-!
Why reading, writing or collecting files fails.
-/

namespace ShapeAudit.Files

/-- The causes that callers tell apart. -/
inductive Cause where
  | notFound
  | permissionDenied
  | other
  deriving DecidableEq, Repr

/-- Why an operation on storage failed. -/
structure Fault where
  cause : Cause
  message : String
  deriving DecidableEq, Repr

namespace Fault

/-- Nothing stands at a path. -/
def noEntry : Fault :=
  ⟨.notFound, "No such file or directory (os error 2)"⟩

/-- A path leads through something that is no folder. -/
def notFolder : Fault :=
  ⟨.other, "Not a directory (os error 20)"⟩

/-- A folder stands where a file is wanted. -/
def isFolder : Fault :=
  ⟨.other, "Is a directory (os error 21)"⟩

/-- The system does not allow what is asked for. -/
def denied : Fault :=
  ⟨.permissionDenied, "Permission denied (os error 13)"⟩

/-- A path leads through too many links. -/
def tooManyLinks : Fault :=
  ⟨.other, "Too many levels of symbolic links (os error 40)"⟩

/-- A file does not hold text. -/
def notText : Fault :=
  ⟨.other, "stream did not contain valid UTF-8"⟩

end Fault

/-- Why the files to work on could not be collected. -/
inductive CollectFault where
  /-- A path that was given does not exist. -/
  | notFound (path : String)
  /-- A folder could not be walked. -/
  | walk (path message : String)
  /-- Storage failed. -/
  | io (fault : Fault)
  deriving DecidableEq, Repr

/-- The wording of a failed collection. -/
def CollectFault.message : CollectFault → String
  | notFound path => "file not found: " ++ path
  | walk path message => "failed to walk " ++ path ++ ": " ++ message
  | io fault => "IO error: " ++ fault.message

end ShapeAudit.Files
