import ShapeAudit.Text

/-!
Paths: the steps that lead along one, the components by which two are compared, and the ending that
marks a script.
-/

namespace ShapeAudit.Files

/-- Whether a path begins at the root of all files. -/
def isAbsolute (path : String) : Bool :=
  path.toList.head? == some '/'

/-- Whether a path ends with a slash. -/
def endsWithSlash (path : String) : Bool :=
  path.toList.getLast? == some '/'

/-- The steps along a path. A slash at the end asks for a folder, as a last step `.` does. -/
def steps (path : String) : List String :=
  let parts := Text.splitAt '/' path
  parts.dropLast.filter (fun part => part != "") ++
    match parts.getLast? with
    | some "" => ["."]
    | some last => [last]
    | none => []

/-- The components by which paths are compared: repeated slashes, a slash at the end, and every `.`
but a leading one do not count. -/
def components (path : String) : List String :=
  match Text.splitAt '/' path with
  | [] => []
  | first :: rest =>
    (if first == "" then (if rest.isEmpty then [] else ["/"]) else [first]) ++
      rest.filter fun part => part != "" && part != "."

/-- The name at the end of a path, unless the path ends in a step that names no file. -/
def fileName? (path : String) : Option String :=
  match (components path).getLast? with
  | some name => if name == "." || name == ".." || name == "/" then none else some name
  | none => none

/-- Whether a file name has the ending of scripts, with something before it. -/
def hasScriptEnding (name : String) : Bool :=
  match name.toList.reverse with
  | 's' :: 'j' :: '.' :: _ :: _ => true
  | _ => false

/-- Whether a path names a script. -/
def isScript (path : String) : Bool :=
  match fileName? path with
  | some name => hasScriptEnding name
  | none => false

/-- The path of a name inside the folder of a path. -/
def child (path name : String) : String :=
  if path == "" || endsWithSlash path then path ++ name else path ++ "/" ++ name

end ShapeAudit.Files
