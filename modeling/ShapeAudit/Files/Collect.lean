import ShapeAudit.Files.Storage

/-!
Collecting the scripts that are named by paths. A file counts if it has the ending of scripts; a
folder stands for the scripts below it, in order of their names, links not followed. Each path is
kept at its first occurrence.
-/

namespace ShapeAudit.Files

namespace Entry

mutual

/-- The paths of the scripts below an entry that stands at a path. -/
def scripts (path : String) : Entry → List String
  | file _ => if isScript path then [path] else []
  | folder entries => scriptsOf path entries
  | link _ => []

/-- The paths of the scripts among the entries of the folder at a path. -/
def scriptsOf (path : String) : List (String × Entry) → List String
  | [] => []
  | (name, entry) :: rest => scripts (child path name) entry ++ scriptsOf path rest

end

mutual

/-- The path of the first folder, at or below an entry that stands at a path and at the end of a
list of names, that cannot be listed. -/
def sealed? (refused : List String → Bool) (names : List String) (path : String) :
    Entry → Option String
  | file _ => none
  | folder entries =>
    if refused names then some path else sealedAmong? refused names path entries
  | link _ => none

/-- The path of the first folder that cannot be listed among the entries of a folder. -/
def sealedAmong? (refused : List String → Bool) (names : List String) (path : String) :
    List (String × Entry) → Option String
  | [] => none
  | (name, entry) :: rest =>
    (sealed? refused (names ++ [name]) (child path name) entry).or
      (sealedAmong? refused names path rest)

end

end Entry

/-- The fault of a walk from a path that comes to a folder that cannot be listed. -/
def CollectFault.sealed (path inner : String) : CollectFault :=
  .walk path ("IO error for operation on " ++ inner ++ ": " ++ Fault.denied.message)

/-- The scripts that one path stands for. -/
def expand (storage : Storage) (path : String) : Except CollectFault (List String) :=
  match storage.locate true path with
  | .ok (.taken names entry) =>
    match entry.sealed? (storage.refuses .read) names path with
    | some inner => .error (.sealed path inner)
    | none => .ok (entry.scripts path)
  | _ => .error (.notFound path)

/-- Keeps each path at its first occurrence, compared by components; some components have occurred
already. -/
def firstOccurrences : List (List String) → List String → List String
  | _, [] => []
  | seen, path :: rest =>
    if seen.contains (components path) then firstOccurrences seen rest
    else path :: firstOccurrences (components path :: seen) rest

/-- The scripts that paths stand for, in the order of the paths. A path that does not exist, or a
folder that cannot be walked, makes the whole collection fail. -/
def collect (storage : Storage) (paths : List String) : Except CollectFault (List String) := do
  let expanded ← paths.mapM (expand storage)
  .ok (firstOccurrences [] expanded.flatten)

end ShapeAudit.Files
