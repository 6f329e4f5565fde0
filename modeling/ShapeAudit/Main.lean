import ShapeAudit.CommandLine.Execute

/-!
The program: it looks at the working folder and the environment, carries out what the arguments ask
for, and writes the summary of a search to its file.
-/

namespace ShapeAudit.CommandLine

/-- The variables that the program looks at. -/
def knownVariables : List String :=
  ["PATH", "HOME", Settings.engineVariable, Settings.cacheVariable, Settings.legacyCacheVariable,
    Settings.timeoutVariable, Settings.batchVariable]

/-- How deep folders are looked at. -/
def folderDepth : Nat := 32

/-- A tree with the entries of a folder at the end of a list of names and all that is in them, and
the names that lead to what cannot be read. -/
def load : Nat → List String → List IO.FS.DirEntry → IO (Files.Entry × List (List String))
  | 0, _, _ => return (.empty, [])
  | depth + 1, names, items => do
    let mut loaded := Files.Entry.empty
    let mut refused := []
    for item in items do
      let here := names ++ [item.fileName]
      if !(← item.path.pathExists) then continue
      if ← item.path.isDir then
        match ← (try some <$> item.path.readDir catch _ => pure none) with
        | some inner =>
          let (below, refusedBelow) ← load depth here inner.toList
          loaded := loaded.place [item.fileName] below
          refused := refused ++ refusedBelow
        | none =>
          loaded := loaded.place [item.fileName] .empty
          refused := here :: refused
      else
        match ← (try some <$> IO.FS.readBinFile item.path catch _ => pure none) with
        | some octets => loaded := loaded.place [item.fileName] (.file octets.toList)
        | none =>
          loaded := loaded.place [item.fileName] (.file [])
          refused := here :: refused
    return (loaded, refused)

/-- The working folder and the environment. -/
def observe : IO Situation := do
  let mut bindings := []
  for name in knownVariables do
    match ← IO.getEnv name with
    | some value => bindings := (name, value) :: bindings
    | none => pure ()
  let found ← (← IO.currentDir).readDir
  let (root, refused) ← load folderDepth [] found.toList
  let files : Files.Storage := {
    root := root
    refuses := fun access names => access == .read && refused.contains names }
  return { files := files, bindings := bindings }

/-- Writes the summary that a search has left in the working folder. -/
def store (request : Request) (files : Files.Storage) : IO Unit := do
  match request.task with
  | .find _ _ _ output _ =>
    match files.read output with
    | .ok octets => IO.FS.writeBinFile output ⟨octets.toArray⟩
    | .error _ => pure ()
  | _ => pure ()

end ShapeAudit.CommandLine

open ShapeAudit CommandLine in
def main (arguments : List String) : IO UInt32 := do
  let outcome := execute (← observe) arguments
  match Request.ofArguments arguments with
  | .ok request => store request outcome.files
  | .error _ => pure ()
  IO.print outcome.output
  return outcome.exit.toUInt32
