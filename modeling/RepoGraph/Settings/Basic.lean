import RepoGraph.Analysis
/-!
# Settings

What can be set for the analysis, the view and the log, what may be given instead for one run, and
which settings are in range.
-/
namespace RepoGraph

structure AnalysisSettings where
  maxFiles : UInt64 := 3000
  /-- The bound on the number of files from one directory, zero for none. -/
  maxFilesPerDir : UInt64 := 20
  maxFileSizeKb : UInt64 := 1024
  excludePatterns : List String := []
  /-- The number of files that are read at the same time, zero for any. -/
  parallelism : UInt64 := 0
  deriving DecidableEq, Repr, Inhabited

structure GraphSettings where
  nodeCap : UInt64 := 200
  minWeight : UInt32 := 2
  maxEdges : UInt64 := 400
  language : String := "all"
  deriving DecidableEq, Repr, Inhabited

inductive LogFormat where
  | text | json
  deriving DecidableEq, Repr, Inhabited

namespace LogFormat

def name : LogFormat → String
  | text => "text"
  | json => "json"

def ofName? : String → Option LogFormat
  | "text" => some text
  | "json" => some json
  | _ => none

end LogFormat

structure LogSettings where
  level : String := "info"
  format : LogFormat := .text
  deriving DecidableEq, Repr, Inhabited

structure Settings where
  analysis : AnalysisSettings := {}
  graph : GraphSettings := {}
  logging : LogSettings := {}
  deriving DecidableEq, Repr, Inhabited

structure Overrides where
  maxFiles : Option UInt64 := none
  maxFilesPerDir : Option UInt64 := none
  nodeCap : Option UInt64 := none
  minWeight : Option UInt32 := none
  maxEdges : Option UInt64 := none
  language : Option String := none
  excludePatterns : List String := []
  logLevel : Option String := none
  logFormat : Option LogFormat := none
  deriving DecidableEq, Repr, Inhabited

def appendNew (texts more : List String) : List String :=
  more.foldl (fun texts text => if texts.contains text then texts else texts ++ [text]) texts

inductive SettingFault where
  | maxFiles
  | maxFileSize
  | nodeCap
  | minWeight
  | maxEdges
  | language (error : UnknownLanguage)
  | logLevel
  deriving DecidableEq, Repr

def logLevels : List String := ["trace", "debug", "info", "warn", "error"]

namespace SettingFault

def key : SettingFault → String
  | maxFiles => "analysis.max_files"
  | maxFileSize => "analysis.max_file_size_kb"
  | nodeCap => "graph.node_cap"
  | minWeight => "graph.min_weight"
  | maxEdges => "graph.max_edges"
  | language _ => "graph.language"
  | logLevel => "logging.level"

def demand : SettingFault → String
  | maxFiles => "must be between 1 and " ++ toString maxFilesLimit
  | nodeCap => "must be at least " ++ toString minNodeCap
  | maxFileSize | minWeight | maxEdges => "must be at least 1"
  | language error => error.message
  | logLevel => "expected one of " ++ ", ".intercalate logLevels

end SettingFault

namespace Settings

def override (settings : Settings) (given : Overrides) : Settings where
  analysis := { settings.analysis with
    maxFiles := given.maxFiles.getD settings.analysis.maxFiles
    maxFilesPerDir := given.maxFilesPerDir.getD settings.analysis.maxFilesPerDir
    excludePatterns := appendNew settings.analysis.excludePatterns given.excludePatterns }
  graph := {
    nodeCap := given.nodeCap.getD settings.graph.nodeCap
    minWeight := given.minWeight.getD settings.graph.minWeight
    maxEdges := given.maxEdges.getD settings.graph.maxEdges
    language := given.language.getD settings.graph.language }
  logging := {
    level := given.logLevel.getD settings.logging.level
    format := given.logFormat.getD settings.logging.format }

def filter (settings : Settings) : Except UnknownLanguage LanguageFilter :=
  LanguageFilter.parse settings.graph.language

def namesLevel (settings : Settings) : Bool :=
  logLevels.contains (String.ofList (Text.lower settings.logging.level.toList))

def fault? (settings : Settings) : Option SettingFault :=
  if settings.analysis.maxFiles < 1 ∨ maxFilesLimit < settings.analysis.maxFiles.toNat then
    some .maxFiles
  else if settings.analysis.maxFileSizeKb = 0 then some .maxFileSize
  else if settings.graph.nodeCap.toNat < minNodeCap then some .nodeCap
  else if settings.graph.minWeight = 0 then some .minWeight
  else if settings.graph.maxEdges = 0 then some .maxEdges
  else match settings.filter with
    | .error error => some (.language error)
    | .ok _ => if settings.namesLevel then none else some .logLevel

def boundOf (n : UInt64) : Option UInt64 := if n = 0 then none else some n

def options (settings : Settings) : Except SettingFault AnalysisOptions := do
  match settings.fault? with
  | some fault => throw fault
  | none =>
    let filter ← settings.filter.mapError .language
    return {
      maxFiles := settings.analysis.maxFiles
      filter
      minWeight := settings.graph.minWeight
      nodeCap := settings.graph.nodeCap
      maxEdges := settings.graph.maxEdges
      maxFilesPerDir := boundOf settings.analysis.maxFilesPerDir
      excludePatterns := settings.analysis.excludePatterns
      fetchConcurrency := boundOf settings.analysis.parallelism
      maxFileSizeKb := settings.analysis.maxFileSizeKb }

/-- The upper value, unless it is the one that is set where nothing else is. -/
def pick [DecidableEq α] (usual lower upper : α) : α := if upper = usual then lower else upper

/-- The settings of an upper layer over those of a lower one. A setting of the upper layer that is
left at its usual value does not hide the lower one, and excluded patterns add up. -/
def overlay (lower upper : Settings) : Settings :=
  let usual : Settings := {}
  { analysis := {
      maxFiles := pick usual.analysis.maxFiles lower.analysis.maxFiles upper.analysis.maxFiles
      maxFilesPerDir := pick usual.analysis.maxFilesPerDir lower.analysis.maxFilesPerDir
        upper.analysis.maxFilesPerDir
      maxFileSizeKb := pick usual.analysis.maxFileSizeKb lower.analysis.maxFileSizeKb
        upper.analysis.maxFileSizeKb
      excludePatterns := appendNew lower.analysis.excludePatterns upper.analysis.excludePatterns
      parallelism := pick usual.analysis.parallelism lower.analysis.parallelism
        upper.analysis.parallelism }
    graph := {
      nodeCap := pick usual.graph.nodeCap lower.graph.nodeCap upper.graph.nodeCap
      minWeight := pick usual.graph.minWeight lower.graph.minWeight upper.graph.minWeight
      maxEdges := pick usual.graph.maxEdges lower.graph.maxEdges upper.graph.maxEdges
      language := pick usual.graph.language lower.graph.language upper.graph.language }
    logging := {
      level := pick usual.logging.level lower.logging.level upper.logging.level
      format := pick usual.logging.format lower.logging.format upper.logging.format } }

end Settings

end RepoGraph
