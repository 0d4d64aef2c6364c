import RepoGraph.Json.Decode
import RepoGraph.Settings.Source
/-!
# Settings as JSON

Settings that are left out keep their usual values.
-/
namespace RepoGraph

def JsonValue.orUsual (read : JsonValue → Option α) (usual : α) : Option JsonValue → Option α
  | none => some usual
  | some value => read value

def SettingValue.toJson : SettingValue → JsonValue
  | number n => .ofNat n
  | text content => .ofString content
  | texts contents => .array (contents.map .ofString)

def SourcedSetting.toJson (setting : SourcedSetting) : JsonValue :=
  .ofMembers [("key", .ofString setting.name.dotted), ("value", setting.value.toJson),
    ("source", .ofString setting.source.name)]

namespace AnalysisSettings

def ofJson? (value : JsonValue) : Option AnalysisSettings := do
  let usual : AnalysisSettings := {}
  match ← value.fields?
    ["max_files", "max_files_per_dir", "max_file_size_kb", "exclude_patterns", "parallelism"] with
  | [maxFiles, maxFilesPerDir, maxFileSizeKb, excludePatterns, parallelism] =>
    some {
      maxFiles := ← JsonValue.orUsual JsonValue.word64? usual.maxFiles maxFiles
      maxFilesPerDir := ← JsonValue.orUsual JsonValue.word64? usual.maxFilesPerDir maxFilesPerDir
      maxFileSizeKb := ← JsonValue.orUsual JsonValue.word64? usual.maxFileSizeKb maxFileSizeKb
      excludePatterns := ← JsonValue.orUsual (JsonValue.list? JsonValue.text?)
        usual.excludePatterns excludePatterns
      parallelism := ← JsonValue.orUsual JsonValue.word64? usual.parallelism parallelism }
  | _ => none

end AnalysisSettings

namespace GraphSettings

def ofJson? (value : JsonValue) : Option GraphSettings := do
  let usual : GraphSettings := {}
  match ← value.fields? ["node_cap", "min_weight", "max_edges", "language"] with
  | [nodeCap, minWeight, maxEdges, language] =>
    some {
      nodeCap := ← JsonValue.orUsual JsonValue.word64? usual.nodeCap nodeCap
      minWeight := ← JsonValue.orUsual JsonValue.word32? usual.minWeight minWeight
      maxEdges := ← JsonValue.orUsual JsonValue.word64? usual.maxEdges maxEdges
      language := ← JsonValue.orUsual JsonValue.text? usual.language language }
  | _ => none

end GraphSettings

def LogFormat.ofJson? (value : JsonValue) : Option LogFormat := value.choice?.bind ofName?

namespace LogSettings

def ofJson? (value : JsonValue) : Option LogSettings := do
  let usual : LogSettings := {}
  match ← value.fields? ["level", "format"] with
  | [level, format] =>
    some {
      level := ← JsonValue.orUsual JsonValue.text? usual.level level
      format := ← JsonValue.orUsual LogFormat.ofJson? usual.format format }
  | _ => none

end LogSettings

namespace Settings

def toJson (settings : Settings) : JsonValue :=
  .ofMembers (settings.groups.map fun (group, entries) =>
    (group, .ofMembers (entries.map fun (key, value) => (key, value.toJson))))

def ofJson? (value : JsonValue) : Option Settings := do
  match ← value.fields? ["analysis", "graph", "logging"] with
  | [analysis, graph, logging] =>
    some {
      analysis := ← JsonValue.orUsual AnalysisSettings.ofJson? {} analysis
      graph := ← JsonValue.orUsual GraphSettings.ofJson? {} graph
      logging := ← JsonValue.orUsual LogSettings.ofJson? {} logging }
  | _ => none

def lookup? (settings : Settings) (key : String) : Option JsonValue :=
  (Text.pieces '.' key).foldl (fun found part => found.bind (·.member? part))
    (some settings.toJson)

end Settings

end RepoGraph
