import RepoGraph.Command.Run
/-!
# Footprints

Where a command looks for files beside those of the repository, so that a machine can be told from a
few paths.
-/
namespace RepoGraph

namespace Command

def paths : Command → List String
  | graph target _ _ output _ => target :: output.toList
  | stats target _ _ _ => [target]
  | listSettings root _ | getSetting _ root _ | initSettings _ root | showPaths root _ => [root]

def readsRepository : Command → Bool
  | graph _ _ _ _ _ | stats _ _ _ _ => true
  | listSettings _ _ | getSetting _ _ _ | initSettings _ _ | showPaths _ _ => false

end Command

namespace CommandLine

def paths (line : CommandLine) : List String :=
  line.common.settingsFile.toList ++ line.command.paths

def ignorePaths (store : FileStore) : List String :=
  (Place.outward store.here).flatMap fun directory =>
    (".git" :: IgnoreSource.all.map IgnoreSource.path).map (DiskPath.join directory.path)

def gitLinks (store : FileStore) : List ByteArray :=
  store.files.filterMap fun (place, content) =>
    if place.head? = some ".git" then some content else none

def commonFiles (store : FileStore) : List String :=
  (gitLinks store).filterMap GitLink.commonFile?

def excludeFiles (store : FileStore) : List String :=
  (gitLinks store).filterMap (GitLink.excludeFile? store)

def userPaths (user : UserDirectories) : List String :=
  (user.home.map Settings.localPath).toList ++ user.gitSettingsFiles ++
    (user.settingsDirectory?.map (DiskPath.join · "git/ignore")).toList

def footprint (line : CommandLine) (machine : Machine) : List String :=
  line.paths ++ line.paths.flatMap DiskPath.parents ++ line.paths.map Settings.localPath ++
    userPaths machine.user ++ ignorePaths machine.store

end CommandLine

end RepoGraph
