import ShapeAudit.Files.Tree

/-!
Storage: a tree of files, the folder in which work goes on, and what the system refuses. Paths that
are not absolute begin in the working folder. Whether something is refused depends on the place
alone, so it stays as it is when files come and go.
-/

namespace ShapeAudit.Files

/-- What the system may refuse. -/
inductive Access where
  /-- To read a file, or to list a folder. -/
  | read
  /-- To make or to write a file. -/
  | write
  deriving DecidableEq, Repr

/-- A tree of files as a program sees it. -/
structure Storage where
  root : Entry := .empty
  /-- The names that lead to the working folder, without links. -/
  here : List String := []
  /-- Whether something is refused at the end of a list of names. -/
  refuses : Access → List String → Bool := fun _ _ => false

/-- A tree in whose root work goes on, and in which nothing is refused. -/
instance : Coe Entry Storage := ⟨fun root => { root := root }⟩

namespace Storage

/-- Storage that holds nothing. -/
def empty : Storage := {}

/-- Puts an entry at the end of a list of names, making the folders that are missing. -/
def place (storage : Storage) (names : List String) (entry : Entry) : Storage :=
  { storage with root := storage.root.place names entry }

/-- Drops the entry at the end of a list of names. -/
def drop (storage : Storage) (names : List String) : Storage :=
  { storage with root := storage.root.drop names }

/-! ## Paths -/

/-- How many links a path may lead through. -/
def linkLimit : Nat := 40

/-- Where a path leads. A last link is followed if that is asked for. -/
def locate (storage : Storage) (followLast : Bool) (path : String) : Except Fault Entry.Spot :=
  if path == "" then .error .noEntry
  else storage.root.walk followLast linkLimit (Entry.outset storage.here.reverse path) (steps path)

/-- The entry at a path, links followed. -/
def status (storage : Storage) (path : String) : Except Fault Entry := do
  match ← storage.locate true path with
  | .taken _ entry => .ok entry
  | .vacant _ => .error .noEntry

/-- Whether something stands at a path. -/
def exists? (storage : Storage) (path : String) : Bool :=
  (storage.status path).toOption.isSome

/-! ## Reading and writing -/

/-- The octets of the file at a path. -/
def read (storage : Storage) (path : String) : Except Fault (List UInt8) := do
  match ← storage.locate true path with
  | .vacant _ => .error .noEntry
  | .taken names entry =>
    if storage.refuses .read names then .error .denied
    else match entry with
      | .file content => .ok content
      | _ => .error .isFolder

/-- The text of the file at a path. -/
def readText (storage : Storage) (path : String) : Except Fault String := do
  match Text.decode? (← storage.read path) with
  | some text => .ok text
  | none => .error .notText

/-- Puts a file at the end of a list of names; the names come with the storage. -/
def writeAt (storage : Storage) (names : List String) (content : List UInt8) :
    Except Fault (List String × Storage) :=
  if storage.refuses .write names then .error .denied
  else .ok (names, storage.place names (.file content))

/-- Puts a file with some octets at a path, over a file that stands there; the names that lead to
it come with the storage. -/
def write (storage : Storage) (path : String) (content : List UInt8) :
    Except Fault (List String × Storage) := do
  if endsWithSlash path then
    match storage.locate true path with
    | .error .notFolder => .error .notFolder
    | _ => .error .isFolder
  else match ← storage.locate true path with
    | .taken names (.file _) => storage.writeAt names content
    | .taken _ _ => .error .isFolder
    | .vacant names => storage.writeAt names content

/-- Adds a text to the file at the end of a list of names. -/
def append (storage : Storage) (names : List String) (text : String) : Storage :=
  match storage.root.at? names with
  | some (.file content) => storage.place names (.file (content ++ Text.octets text))
  | _ => storage

/-- Drops the file or link at a path. -/
def remove (storage : Storage) (path : String) : Except Fault Storage := do
  match ← storage.locate false path with
  | .taken _ (.folder _) => .error .isFolder
  | .taken names _ => .ok (storage.drop names)
  | .vacant _ => .error .noEntry

end Storage

/-! ## Making trees -/

namespace Entry

/-- Makes the folders along a path that are missing. -/
def makeFolders (root : Entry) (path : String) : Entry :=
  ((steps path).filter fun step => step != ".").foldl (fun (tree, before) step =>
    let here := if before == "" then step else before ++ "/" ++ step
    match Storage.locate tree true here with
    | .ok (.vacant names) => (tree.place names empty, here)
    | _ => (tree, here)) (root, "") |>.1

/-- The path of the folder that holds the end of a path. -/
def parentPath (path : String) : String :=
  Text.join "/" ((steps path).dropLast)

/-- Puts an entry at a path, making the folders that are missing. -/
def make (root : Entry) (path : String) (entry : Entry) : Entry :=
  match entry with
  | folder _ => root.makeFolders path
  | file content =>
    let ready := root.makeFolders (parentPath path)
    match Storage.write ready path content with
    | .ok (_, storage) => storage.root
    | .error _ => ready
  | link target =>
    let ready := root.makeFolders (parentPath path)
    match Storage.locate ready false path with
    | .ok (.vacant names) => ready.place names (link target)
    | _ => ready

end Entry

end ShapeAudit.Files
