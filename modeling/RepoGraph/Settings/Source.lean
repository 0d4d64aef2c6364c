import RepoGraph.Settings.Basic
/-!
# Where settings come from

Every setting by its name, and the layer to which its value is owed.
-/
namespace RepoGraph

inductive SettingValue where
  | number (n : Nat)
  | text (content : String)
  | texts (contents : List String)
  deriving DecidableEq, Repr

def AnalysisSettings.entries (settings : AnalysisSettings) : List (String × SettingValue) :=
  [("exclude_patterns", .texts settings.excludePatterns),
    ("max_file_size_kb", .number settings.maxFileSizeKb.toNat),
    ("max_files", .number settings.maxFiles.toNat),
    ("max_files_per_dir", .number settings.maxFilesPerDir.toNat),
    ("parallelism", .number settings.parallelism.toNat)]

def GraphSettings.entries (settings : GraphSettings) : List (String × SettingValue) :=
  [("language", .text settings.language), ("max_edges", .number settings.maxEdges.toNat),
    ("min_weight", .number settings.minWeight.toNat),
    ("node_cap", .number settings.nodeCap.toNat)]

def LogSettings.entries (settings : LogSettings) : List (String × SettingValue) :=
  [("format", .text settings.format.name), ("level", .text settings.level)]

/-- The name of a setting: its group and its key in the group. -/
structure SettingName where
  group : String
  key : String
  deriving DecidableEq, Repr

def SettingName.dotted (name : SettingName) : String := name.group ++ "." ++ name.key

namespace Settings

def groups (settings : Settings) : List (String × List (String × SettingValue)) :=
  [("analysis", settings.analysis.entries), ("graph", settings.graph.entries),
    ("logging", settings.logging.entries)]

def entries (settings : Settings) : List (SettingName × SettingValue) :=
  settings.groups.flatMap fun (group, entries) =>
    entries.map fun (key, value) => (⟨group, key⟩, value)

end Settings

/-- The layer to which a value is owed. -/
inductive SettingSource where
  | usual | user | checkout | file
  deriving DecidableEq, Repr

namespace SettingSource

def name : SettingSource → String
  | usual => "default"
  | user => "global"
  | checkout => "local"
  | file => "file"

/-- The source of a value over the layers of user and checkout. It is owed to the checkout where the
checkout has that value and the user another one. -/
def ofLayers (usual user checkout effective : SettingValue) : SettingSource :=
  if effective = checkout ∧ checkout ≠ user then .checkout
  else if effective ≠ usual then .user
  else .usual

def ofFile (usual effective : SettingValue) : SettingSource :=
  if effective ≠ usual then .file else .usual

end SettingSource

structure SourcedSetting where
  name : SettingName
  value : SettingValue
  source : SettingSource
  deriving DecidableEq, Repr

namespace Settings

/-- The settings that are in force, with their sources among the layers of user and checkout. -/
def sourced (effective user checkout : Settings) : List SourcedSetting :=
  (effective.entries.zip (checkout.entries.zip (user.entries.zip ({} : Settings).entries))).map
    fun ((name, value), (_, checkout), (_, user), (_, usual)) =>
      ⟨name, value, .ofLayers usual user checkout value⟩

def sourcedFile (settings : Settings) : List SourcedSetting :=
  (settings.entries.zip ({} : Settings).entries).map fun ((name, value), (_, usual)) =>
    ⟨name, value, .ofFile usual value⟩

end Settings

end RepoGraph
