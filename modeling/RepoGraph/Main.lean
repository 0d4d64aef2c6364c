import RepoGraph.Command.Footprint
/-!
# The command line

Reads what a command looks at, runs it, and writes what it changed. The paths of the repository's
files are read from the standard input, one a line, and no program is started.
-/
namespace RepoGraph

def directoryCode : UInt32 := 21

def loadPath (store : FileStore) (path : String) : IO FileStore := do
  try
    return store.addFile path (← IO.FS.readBinFile path) false
  catch
    | .inappropriateType _ code _ =>
      if code = directoryCode then return (store.makeDirectories path).toOption.getD store
      else return store
    | _ => return store

def loadPaths (store : FileStore) (paths : List String) : IO FileStore :=
  paths.foldlM loadPath store

def inputLines : IO (List String) := do
  let content ← (← IO.getStdin).readToEnd
  return (Text.lines content.toList).map String.ofList

def loadVariables : IO (List (String × String)) := do
  let names := ["HOME", "XDG_CONFIG_HOME", "GIT_CONFIG_GLOBAL", "GIT_CONFIG_SYSTEM",
    "ARCHGRAPH_CONFIG", "ARCHGRAPH_LOG_FORMAT"]
  return (← names.mapM fun name => return (← IO.getEnv name).map (name, ·)).filterMap id

def loadMachine (words : List String) : IO Machine := do
  let store := ({} : FileStore).enter (toString (← IO.currentDir))
  let machine : Machine :=
    { store, environment := ← loadVariables, git := fun _ _ => .error .notFound }
  match CommandLine.parse words machine.environment with
  | .error _ => return machine
  | .ok line =>
    let listed ← if line.command.readsRepository then inputLines else pure []
    let store ← loadPaths store (line.footprint machine ++ listed)
    let store ← loadPaths store (machine.user.ignoreFile? store).toList
    let store ← loadPaths store (CommandLine.commonFiles store)
    let store ← loadPaths store (CommandLine.excludeFiles store)
    return { machine with store }

def savePath (place : Place) (content : ByteArray) : IO Unit := do
  IO.FS.createDirAll (Place.path place.tail)
  IO.FS.writeBinFile place.path content

end RepoGraph

open RepoGraph in
def main (words : List String) : IO UInt32 := do
  let machine ← loadMachine words
  let outcome := machine.run words
  for (place, content) in outcome.store.changesSince machine.store do
    savePath place content
  IO.print outcome.output
  for note in outcome.notes do
    IO.eprintln note
  if let some failure := outcome.failure then
    IO.eprintln failure.render
  return outcome.exitCode.toUInt32
