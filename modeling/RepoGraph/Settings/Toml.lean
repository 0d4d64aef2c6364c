import RepoGraph.Settings.Basic
import RepoGraph.Toml.Reader
import RepoGraph.Toml.Writer
/-!
# Settings files

A settings file is a TOML document with a table for each group of settings. What it leaves out keeps
its usual value, and what it has beside the settings is passed over. Written files hold every
setting.
-/
namespace RepoGraph

namespace TomlValue

/-- The fields of a record in the order of their keys, none for those left out: the entries of a
table, or the items of an array in order. A time is a record without any of the fields. -/
def fields? (keys : List String) : TomlValue → Option (List (Option TomlValue))
  | table entries => some (keys.map fun key => (table entries).get? key)
  | array items =>
    some ((items.take keys.length).map some ++ List.replicate (keys.length - items.length) none)
  | time _ => some (keys.map fun _ => none)
  | _ => none

/-- The name of a choice: a text, or the only key of a table over nothing. -/
def choice? : TomlValue → Option String
  | text content => some content
  | table [(key, table [])] => some key
  | table [(key, array [])] => some key
  | _ => none

def word64? (value : TomlValue) : Option UInt64 :=
  (value.integer?.filter fun n => 0 ≤ n && n.toNat < UInt64.size).map fun n =>
    UInt64.ofNat n.toNat

def word32? (value : TomlValue) : Option UInt32 :=
  (value.integer?.filter fun n => 0 ≤ n && n.toNat < UInt32.size).map fun n =>
    UInt32.ofNat n.toNat

def list? (read : TomlValue → Option α) (value : TomlValue) : Option (List α) :=
  value.items?.bind (·.mapM read)

def orUsual (read : TomlValue → Option α) (usual : α) : Option TomlValue → Option α
  | none => some usual
  | some value => read value

end TomlValue

namespace AnalysisSettings

def ofToml? (value : TomlValue) : Option AnalysisSettings := do
  let usual : AnalysisSettings := {}
  match ← value.fields?
    ["max_files", "max_files_per_dir", "max_file_size_kb", "exclude_patterns", "parallelism"] with
  | [maxFiles, maxFilesPerDir, maxFileSizeKb, excludePatterns, parallelism] =>
    some {
      maxFiles := ← TomlValue.orUsual TomlValue.word64? usual.maxFiles maxFiles
      maxFilesPerDir := ← TomlValue.orUsual TomlValue.word64? usual.maxFilesPerDir maxFilesPerDir
      maxFileSizeKb := ← TomlValue.orUsual TomlValue.word64? usual.maxFileSizeKb maxFileSizeKb
      excludePatterns := ← TomlValue.orUsual (TomlValue.list? TomlValue.text?)
        usual.excludePatterns excludePatterns
      parallelism := ← TomlValue.orUsual TomlValue.word64? usual.parallelism parallelism }
  | _ => none

end AnalysisSettings

namespace GraphSettings

def ofToml? (value : TomlValue) : Option GraphSettings := do
  let usual : GraphSettings := {}
  match ← value.fields? ["node_cap", "min_weight", "max_edges", "language"] with
  | [nodeCap, minWeight, maxEdges, language] =>
    some {
      nodeCap := ← TomlValue.orUsual TomlValue.word64? usual.nodeCap nodeCap
      minWeight := ← TomlValue.orUsual TomlValue.word32? usual.minWeight minWeight
      maxEdges := ← TomlValue.orUsual TomlValue.word64? usual.maxEdges maxEdges
      language := ← TomlValue.orUsual TomlValue.text? usual.language language }
  | _ => none

end GraphSettings

namespace LogSettings

def ofToml? (value : TomlValue) : Option LogSettings := do
  let usual : LogSettings := {}
  match ← value.fields? ["level", "format"] with
  | [level, format] =>
    some {
      level := ← TomlValue.orUsual TomlValue.text? usual.level level
      format := ← TomlValue.orUsual (fun value => value.choice?.bind LogFormat.ofName?)
        usual.format format }
  | _ => none

end LogSettings

namespace Settings

def ofToml? (value : TomlValue) : Option Settings := do
  match ← value.fields? ["analysis", "graph", "logging"] with
  | [analysis, graph, logging] =>
    some {
      analysis := ← TomlValue.orUsual AnalysisSettings.ofToml? {} analysis
      graph := ← TomlValue.orUsual GraphSettings.ofToml? {} graph
      logging := ← TomlValue.orUsual LogSettings.ofToml? {} logging }
  | _ => none

def parse? (text : String) : Option Settings := (TomlValue.parse? text).bind ofToml?

def writeEntry (key : String) (value : List Char) : List Char :=
  key.toList ++ " = ".toList ++ value ++ ['\n']

def writeNumber (key : String) (n : Nat) : List Char := writeEntry key (Nat.toDigits 10 n)

def writeHeader (key : String) : List Char := '[' :: (key.toList ++ [']', '\n'])

def write (settings : Settings) : List Char :=
  writeHeader "analysis" ++
    writeNumber "max_files" settings.analysis.maxFiles.toNat ++
    writeNumber "max_files_per_dir" settings.analysis.maxFilesPerDir.toNat ++
    writeNumber "max_file_size_kb" settings.analysis.maxFileSizeKb.toNat ++
    writeEntry "exclude_patterns" (Toml.writeTexts settings.analysis.excludePatterns) ++
    writeNumber "parallelism" settings.analysis.parallelism.toNat ++ ['\n'] ++
  writeHeader "graph" ++
    writeNumber "node_cap" settings.graph.nodeCap.toNat ++
    writeNumber "min_weight" settings.graph.minWeight.toNat ++
    writeNumber "max_edges" settings.graph.maxEdges.toNat ++
    writeEntry "language" (Toml.writeText settings.graph.language) ++ ['\n'] ++
  writeHeader "logging" ++
    writeEntry "level" (Toml.writeText settings.logging.level) ++
    writeEntry "format" (Toml.writeText settings.logging.format.name)

def integerLimit : Nat := 0x7fffffffffffffff

def numbers (settings : Settings) : List Nat :=
  [settings.analysis.maxFiles.toNat, settings.analysis.maxFilesPerDir.toNat,
    settings.analysis.maxFileSizeKb.toNat, settings.analysis.parallelism.toNat,
    settings.graph.nodeCap.toNat, settings.graph.minWeight.toNat, settings.graph.maxEdges.toNat]

/-- The text of the settings, if a document can hold their numbers. -/
def render? (settings : Settings) : Option String :=
  if settings.numbers.all (· ≤ integerLimit) then some (String.ofList settings.write) else none

end Settings

end RepoGraph
