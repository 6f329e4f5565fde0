import ShapeAudit.Files.Fault
import ShapeAudit.Files.Path

/-!
A tree of files, folders and symbolic links, and the ways through it. A path leads on from some
folder, or from the root of the tree if it is absolute; a link leads on along its target, from the
folder that holds it.
-/

namespace ShapeAudit.Files

/-- Something that has a name in a folder. -/
inductive Entry where
  /-- A file with its octets. -/
  | file (content : List UInt8)
  /-- A folder with its entries, in increasing order of their names. -/
  | folder (entries : List (String × Entry))
  /-- A symbolic link with its target. -/
  | link (target : String)

namespace Entry

instance : Inhabited Entry := ⟨folder []⟩

/-- The tree that holds nothing. -/
def empty : Entry := folder []

/-! ## Entries of a folder -/

/-- The entry of a name. -/
def find? (name : String) : List (String × Entry) → Option Entry
  | [] => none
  | (key, entry) :: rest => if key = name then some entry else find? name rest

/-- Puts an entry at its place among entries in order, over one of the same name. -/
def put (name : String) (entry : Entry) : List (String × Entry) → List (String × Entry)
  | [] => [(name, entry)]
  | (key, old) :: rest =>
    if key = name then (name, entry) :: rest
    else if Text.lessThan name key then (name, entry) :: (key, old) :: rest
    else (key, old) :: put name entry rest

/-- Drops the entry of a name. -/
def erase (name : String) (entries : List (String × Entry)) : List (String × Entry) :=
  entries.filter fun entry => entry.1 != name

/-- The entry of a name in a folder; nothing in anything else. -/
def child? (name : String) : Entry → Option Entry
  | folder entries => find? name entries
  | _ => none

/-- Whether an entry is a folder. -/
def isFolder : Entry → Bool
  | folder _ => true
  | _ => false

/-! ## Names without links -/

/-- The entry at the end of a list of names. -/
def at? : List String → Entry → Option Entry
  | [], entry => some entry
  | name :: rest, entry => (entry.child? name).bind (at? rest)

/-- Puts an entry at the end of a list of names, making the folders that are missing. -/
def place : Entry → List String → Entry → Entry
  | _, [], new => new
  | folder entries, name :: rest, new =>
    folder (put name (place ((find? name entries).getD empty) rest new) entries)
  | other, _ :: _, _ => other

/-- Drops the entry at the end of a list of names. -/
def drop : List String → Entry → Entry
  | [name], folder entries => folder (erase name entries)
  | name :: rest, folder entries =>
    match find? name entries with
    | some entry => folder (put name (drop rest entry) entries)
    | none => folder entries
  | _, other => other

/-! ## Paths -/

/-- Where a path leads. -/
inductive Spot where
  /-- To an entry, with the names that lead to it without links. -/
  | taken (names : List String) (entry : Entry)
  /-- To a place in a folder where nothing stands. -/
  | vacant (names : List String)

/-- How far a path leads until it is at an end or at a link. -/
inductive Stride where
  /-- To the end. -/
  | ended (spot : Spot)
  /-- To a link, with the folder that holds it, the target, and the steps that are left. -/
  | linked (holder : List String) (target : String) (rest : List String)

/-- Goes along steps from a folder up to the end or to the first link. The names of the folder are
given innermost first. -/
def stride (root : Entry) (followLast : Bool) :
    List String → List String → Except Fault Stride
  | names, [] =>
    match root.at? names.reverse with
    | some entry => .ok (.ended (.taken names.reverse entry))
    | none => .error .noEntry
  | names, step :: rest =>
    if step = "." then stride root followLast names rest
    else if step = ".." then stride root followLast names.tail rest
    else match (root.at? names.reverse).bind (child? step) with
      | none =>
        if rest.isEmpty then .ok (.ended (.vacant (step :: names).reverse)) else .error .noEntry
      | some (folder _) => stride root followLast (step :: names) rest
      | some (file content) =>
        if rest.isEmpty then .ok (.ended (.taken (step :: names).reverse (file content)))
        else .error .notFolder
      | some (link target) =>
        if rest.isEmpty && !followLast then
          .ok (.ended (.taken (step :: names).reverse (link target)))
        else .ok (.linked names target rest)

/-- The folder in which a path begins that is seen from a folder, innermost name first. -/
def outset (folders : List String) (path : String) : List String :=
  if isAbsolute path then [] else folders

/-- Goes along steps through at most so many links. -/
def walk (root : Entry) (followLast : Bool) :
    Nat → List String → List String → Except Fault Spot
  | links, names, todo => do
    match ← stride root followLast names todo with
    | .ended spot => .ok spot
    | .linked holder target rest =>
      match links with
      | 0 => .error .tooManyLinks
      | left + 1 => walk root followLast left (outset holder target) (steps target ++ rest)

end Entry

end ShapeAudit.Files
