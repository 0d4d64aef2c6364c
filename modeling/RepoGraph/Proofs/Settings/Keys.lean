import RepoGraph.Proofs.Settings.Loading
import RepoGraph.Settings.Source

/-!
# Settings by key

Every setting has a key, under which it has a value among the settings, and under which a settings
file may set it. The settings of a file have under each key the value that the file sets it to, and
the usual one where it sets none.
-/

namespace RepoGraph

inductive SettingGroup where
  | analysis | graph | logging
  deriving DecidableEq, Repr

namespace SettingGroup

def name : SettingGroup → String
  | analysis => "analysis"
  | graph => "graph"
  | logging => "logging"

def names : List String := [name analysis, name graph, name logging]

def keys : SettingGroup → List String
  | analysis =>
    ["max_files", "max_files_per_dir", "max_file_size_kb", "exclude_patterns", "parallelism"]
  | graph => ["node_cap", "min_weight", "max_edges", "language"]
  | logging => ["level", "format"]

end SettingGroup

inductive SettingKey where
  | excludePatterns | maxFileSizeKb | maxFiles | maxFilesPerDir | parallelism
  | language | maxEdges | minWeight | nodeCap
  | format | level
  deriving DecidableEq, Repr

namespace SettingKey

def all : List SettingKey :=
  [excludePatterns, maxFileSizeKb, maxFiles, maxFilesPerDir, parallelism, language, maxEdges,
    minWeight, nodeCap, format, level]

def group : SettingKey → SettingGroup
  | excludePatterns | maxFileSizeKb | maxFiles | maxFilesPerDir | parallelism => .analysis
  | language | maxEdges | minWeight | nodeCap => .graph
  | format | level => .logging

def word : SettingKey → String
  | excludePatterns => "exclude_patterns"
  | maxFileSizeKb => "max_file_size_kb"
  | maxFiles => "max_files"
  | maxFilesPerDir => "max_files_per_dir"
  | parallelism => "parallelism"
  | language => "language"
  | maxEdges => "max_edges"
  | minWeight => "min_weight"
  | nodeCap => "node_cap"
  | format => "format"
  | level => "level"

def name (key : SettingKey) : SettingName := ⟨key.group.name, key.word⟩

def value (key : SettingKey) (settings : Settings) : SettingValue :=
  match key with
  | excludePatterns => .texts settings.analysis.excludePatterns
  | maxFileSizeKb => .number settings.analysis.maxFileSizeKb.toNat
  | maxFiles => .number settings.analysis.maxFiles.toNat
  | maxFilesPerDir => .number settings.analysis.maxFilesPerDir.toNat
  | parallelism => .number settings.analysis.parallelism.toNat
  | language => .text settings.graph.language
  | maxEdges => .number settings.graph.maxEdges.toNat
  | minWeight => .number settings.graph.minWeight.toNat
  | nodeCap => .number settings.graph.nodeCap.toNat
  | format => .text settings.logging.format.name
  | level => .text settings.logging.level

/-- The value that the setting has where nothing sets it. -/
def usual (key : SettingKey) : SettingValue := key.value {}

theorem entries_eq (settings : Settings) :
    settings.entries = all.map fun key => (key.name, key.value settings) :=
  rfl

end SettingKey

def TomlValue.field? (keys : List String) (key : String) (value : TomlValue) : Option TomlValue :=
  (value.fields? keys).bind fun fields => ((keys.zip fields).lookup key).join

namespace SettingKey

def given? (key : SettingKey) (document : TomlValue) : Option TomlValue :=
  (document.field? SettingGroup.names key.group.name).bind (·.field? key.group.keys key.word)

def read? (key : SettingKey) (written : TomlValue) : Option SettingValue :=
  match key with
  | maxFileSizeKb | maxFiles | maxFilesPerDir | parallelism | maxEdges | nodeCap =>
    written.word64?.map (.number ·.toNat)
  | minWeight => written.word32?.map (.number ·.toNat)
  | language | level => written.text?.map .text
  | format => (written.choice?.bind LogFormat.ofName?).map (.text ·.name)
  | excludePatterns => (written.list? TomlValue.text?).map .texts

end SettingKey

private theorem TomlValue.orUsual_map {α β : Type} (read : TomlValue → Option α) (usual : α)
    (f : α → β) (written : Option TomlValue) :
    orUsual (fun value => (read value).map f) (f usual) written =
      (orUsual read usual written).map f := by
  cases written <;> rfl

private theorem TomlValue.field?_eq {keys : List String} {value : TomlValue}
    {fields : List (Option TomlValue)} (h : value.fields? keys = some fields) (key : String) :
    value.field? keys key = ((keys.zip fields).lookup key).join := by
  rw [field?, h, Option.bind_some]

private theorem TomlValue.orUsual_map_eq {α β : Type} {read : TomlValue → Option α}
    {usual found : α}
    {written : Option TomlValue} (f : α → β) (h : orUsual read usual written = some found) :
    orUsual (fun value => (read value).map f) (f usual) written = some (f found) := by
  rw [orUsual_map, h, Option.map_some]

private theorem AnalysisSettings.ofToml?_eq_some {value : TomlValue} {settings : AnalysisSettings}
    (h : ofToml? value = some settings) :
    ∃ maxFiles maxFilesPerDir maxFileSizeKb excludePatterns parallelism,
      value.fields? SettingGroup.analysis.keys =
        some [maxFiles, maxFilesPerDir, maxFileSizeKb, excludePatterns, parallelism] ∧
      TomlValue.orUsual TomlValue.word64? 3000 maxFiles = some settings.maxFiles ∧
      TomlValue.orUsual TomlValue.word64? 20 maxFilesPerDir = some settings.maxFilesPerDir ∧
      TomlValue.orUsual TomlValue.word64? 1024 maxFileSizeKb = some settings.maxFileSizeKb ∧
      TomlValue.orUsual (TomlValue.list? TomlValue.text?) [] excludePatterns =
        some settings.excludePatterns ∧
      TomlValue.orUsual TomlValue.word64? 0 parallelism = some settings.parallelism := by
  unfold ofToml? at h
  obtain ⟨fields, hfields, h⟩ := Option.bind_eq_some_iff.mp h
  split at h
  · obtain ⟨a, ha, h⟩ := Option.bind_eq_some_iff.mp h
    obtain ⟨b, hb, h⟩ := Option.bind_eq_some_iff.mp h
    obtain ⟨c, hc, h⟩ := Option.bind_eq_some_iff.mp h
    obtain ⟨d, hd, h⟩ := Option.bind_eq_some_iff.mp h
    obtain ⟨e, he, h⟩ := Option.bind_eq_some_iff.mp h
    cases h
    exact ⟨_, _, _, _, _, hfields, ha, hb, hc, hd, he⟩
  · cases h

private theorem GraphSettings.ofToml?_eq_some {value : TomlValue} {settings : GraphSettings}
    (h : ofToml? value = some settings) :
    ∃ nodeCap minWeight maxEdges language,
      value.fields? SettingGroup.graph.keys =
        some [nodeCap, minWeight, maxEdges, language] ∧
      TomlValue.orUsual TomlValue.word64? 200 nodeCap = some settings.nodeCap ∧
      TomlValue.orUsual TomlValue.word32? 2 minWeight = some settings.minWeight ∧
      TomlValue.orUsual TomlValue.word64? 400 maxEdges = some settings.maxEdges ∧
      TomlValue.orUsual TomlValue.text? "all" language = some settings.language := by
  unfold ofToml? at h
  obtain ⟨fields, hfields, h⟩ := Option.bind_eq_some_iff.mp h
  split at h
  · obtain ⟨a, ha, h⟩ := Option.bind_eq_some_iff.mp h
    obtain ⟨b, hb, h⟩ := Option.bind_eq_some_iff.mp h
    obtain ⟨c, hc, h⟩ := Option.bind_eq_some_iff.mp h
    obtain ⟨d, hd, h⟩ := Option.bind_eq_some_iff.mp h
    cases h
    exact ⟨_, _, _, _, hfields, ha, hb, hc, hd⟩
  · cases h

private theorem LogSettings.ofToml?_eq_some {value : TomlValue} {settings : LogSettings}
    (h : ofToml? value = some settings) :
    ∃ level format,
      value.fields? SettingGroup.logging.keys = some [level, format] ∧
      TomlValue.orUsual TomlValue.text? "info" level = some settings.level ∧
      TomlValue.orUsual (fun value => value.choice?.bind LogFormat.ofName?) .text format =
        some settings.format := by
  unfold ofToml? at h
  obtain ⟨fields, hfields, h⟩ := Option.bind_eq_some_iff.mp h
  split at h
  · obtain ⟨a, ha, h⟩ := Option.bind_eq_some_iff.mp h
    obtain ⟨b, hb, h⟩ := Option.bind_eq_some_iff.mp h
    cases h
    exact ⟨_, _, hfields, ha, hb⟩
  · cases h

private theorem Settings.ofToml?_eq_some {document : TomlValue} {settings : Settings}
    (h : ofToml? document = some settings) :
    ∃ analysis graph logging,
      document.fields? SettingGroup.names = some [analysis, graph, logging] ∧
      TomlValue.orUsual AnalysisSettings.ofToml? {} analysis = some settings.analysis ∧
      TomlValue.orUsual GraphSettings.ofToml? {} graph = some settings.graph ∧
      TomlValue.orUsual LogSettings.ofToml? {} logging = some settings.logging := by
  unfold ofToml? at h
  obtain ⟨fields, hfields, h⟩ := Option.bind_eq_some_iff.mp h
  split at h
  · obtain ⟨a, ha, h⟩ := Option.bind_eq_some_iff.mp h
    obtain ⟨b, hb, h⟩ := Option.bind_eq_some_iff.mp h
    obtain ⟨c, hc, h⟩ := Option.bind_eq_some_iff.mp h
    cases h
    exact ⟨_, _, _, hfields, ha, hb, hc⟩
  · cases h

namespace SettingKey

section Groups

variable {part : Option TomlValue} {settings : Settings} {key : SettingKey}

private theorem orUsual_of_analysis
    (h : TomlValue.orUsual AnalysisSettings.ofToml? {} part = some settings.analysis)
    (hkey : key.group = .analysis) :
    TomlValue.orUsual key.read? key.usual (part.bind (·.field? key.group.keys key.word)) =
      some (key.value settings) := by
  obtain ⟨analysis, graph, logging⟩ := settings
  cases part with
  | none =>
    obtain rfl : {} = analysis := Option.some.inj h
    cases key with
    | excludePatterns | maxFileSizeKb | maxFiles | maxFilesPerDir | parallelism => rfl
    | _ => cases hkey
  | some value =>
    obtain ⟨_, _, _, _, _, hfields, hmaxFiles, hperDir, hsize, hpatterns, hparallelism⟩ :=
      AnalysisSettings.ofToml?_eq_some h
    rw [Option.bind_some, hkey, TomlValue.field?_eq hfields]
    cases key with
    | excludePatterns => exact TomlValue.orUsual_map_eq SettingValue.texts hpatterns
    | maxFileSizeKb => exact TomlValue.orUsual_map_eq (fun n => SettingValue.number n.toNat) hsize
    | maxFiles => exact TomlValue.orUsual_map_eq (fun n => SettingValue.number n.toNat) hmaxFiles
    | maxFilesPerDir =>
      exact TomlValue.orUsual_map_eq (fun n => SettingValue.number n.toNat) hperDir
    | parallelism =>
      exact TomlValue.orUsual_map_eq (fun n => SettingValue.number n.toNat) hparallelism
    | _ => cases hkey

private theorem orUsual_of_graph
    (h : TomlValue.orUsual GraphSettings.ofToml? {} part = some settings.graph)
    (hkey : key.group = .graph) :
    TomlValue.orUsual key.read? key.usual (part.bind (·.field? key.group.keys key.word)) =
      some (key.value settings) := by
  obtain ⟨analysis, graph, logging⟩ := settings
  cases part with
  | none =>
    obtain rfl : {} = graph := Option.some.inj h
    cases key with
    | language | maxEdges | minWeight | nodeCap => rfl
    | _ => cases hkey
  | some value =>
    obtain ⟨_, _, _, _, hfields, hnodeCap, hminWeight, hmaxEdges, hlanguage⟩ :=
      GraphSettings.ofToml?_eq_some h
    rw [Option.bind_some, hkey, TomlValue.field?_eq hfields]
    cases key with
    | language => exact TomlValue.orUsual_map_eq SettingValue.text hlanguage
    | maxEdges => exact TomlValue.orUsual_map_eq (fun n => SettingValue.number n.toNat) hmaxEdges
    | minWeight => exact TomlValue.orUsual_map_eq (fun n => SettingValue.number n.toNat) hminWeight
    | nodeCap => exact TomlValue.orUsual_map_eq (fun n => SettingValue.number n.toNat) hnodeCap
    | _ => cases hkey

private theorem orUsual_of_logging
    (h : TomlValue.orUsual LogSettings.ofToml? {} part = some settings.logging)
    (hkey : key.group = .logging) :
    TomlValue.orUsual key.read? key.usual (part.bind (·.field? key.group.keys key.word)) =
      some (key.value settings) := by
  obtain ⟨analysis, graph, logging⟩ := settings
  cases part with
  | none =>
    obtain rfl : {} = logging := Option.some.inj h
    cases key with
    | format | level => rfl
    | _ => cases hkey
  | some value =>
    obtain ⟨_, _, hfields, hlevel, hformat⟩ := LogSettings.ofToml?_eq_some h
    rw [Option.bind_some, hkey, TomlValue.field?_eq hfields]
    cases key with
    | format =>
      exact TomlValue.orUsual_map_eq (fun format => SettingValue.text format.name) hformat
    | level => exact TomlValue.orUsual_map_eq SettingValue.text hlevel
    | _ => cases hkey

end Groups

/-- The settings that a document is have under every key what it sets the key to, and the usual
value where it sets none. -/
theorem orUsual_given? {document : TomlValue} {settings : Settings}
    (h : Settings.ofToml? document = some settings) (key : SettingKey) :
    TomlValue.orUsual key.read? key.usual (key.given? document) = some (key.value settings) := by
  obtain ⟨_, _, _, hfields, hanalysis, hgraph, hlogging⟩ := Settings.ofToml?_eq_some h
  rw [given?, TomlValue.field?_eq hfields]
  cases hgroup : key.group with
  | analysis =>
    have hvalue := orUsual_of_analysis hanalysis hgroup
    rw [hgroup] at hvalue
    exact hvalue
  | graph =>
    have hvalue := orUsual_of_graph hgraph hgroup
    rw [hgroup] at hvalue
    exact hvalue
  | logging =>
    have hvalue := orUsual_of_logging hlogging hgroup
    rw [hgroup] at hvalue
    exact hvalue

/-- The value to which a text sets the setting. -/
def setBy? (key : SettingKey) (text : String) : Option SettingValue :=
  (TomlValue.parse? text).bind fun document => (key.given? document).bind key.read?

/-- The value to which a file sets the setting, if the file is there. -/
def setIn? (key : SettingKey) (store : FileStore) (path : String) : Option SettingValue :=
  if store.contains path then (store.readText path).toOption.bind key.setBy? else none

private theorem value_of_parse? {text : String} {settings : Settings}
    (h : Settings.parse? text = some settings) (key : SettingKey) :
    key.value settings = (key.setBy? text).getD key.usual := by
  obtain ⟨document, hdocument, hsettings⟩ := Option.bind_eq_some_iff.mp h
  have hgiven := orUsual_given? hsettings key
  rw [setBy?, hdocument, Option.bind_some]
  cases hkey : key.given? document with
  | none =>
    rw [hkey] at hgiven
    exact (Option.some.inj hgiven).symm
  | some written =>
    rw [hkey] at hgiven
    change key.read? written = _ at hgiven
    rw [Option.bind_some, hgiven, Option.getD_some]

theorem setIn?_of_entry {store : FileStore} {path text : String} {executable : Bool}
    (h : store.entry path = .ok (.file text.toUTF8 executable)) (key : SettingKey) :
    key.setIn? store path = key.setBy? text := by
  rw [setIn?, if_pos (FileStore.contains_of_entry h), FileStore.readText_of_entry h]
  rfl

/-- The settings of a file, the usual ones if it is not there, have under every key what the file
sets it to, and else the usual value. -/
theorem value_of_readFile? {store : FileStore} {path : String} {found : Option Settings}
    (h : Settings.readFile? store path = .ok found) (key : SettingKey) :
    key.value (found.getD {}) = (key.setIn? store path).getD key.usual := by
  rw [Settings.readFile?] at h
  rw [setIn?]
  split at h
  · rename_i hthere
    rw [if_pos hthere]
    rw [Settings.readFile] at h
    split at h
    · cases h
    · rename_i text htext
      split at h
      · rename_i settings hsettings
        cases h
        rw [htext]
        exact value_of_parse? hsettings key
      · cases h
  · rename_i hmissing
    cases h
    rw [if_neg hmissing]
    rfl

theorem value_of_userSettings {store : FileStore} {path : Option String} {found : Option Settings}
    (h : SettingsLoader.userSettings path store = .ok found) (key : SettingKey) :
    key.value (found.getD {}) = (path.bind (key.setIn? store)).getD key.usual := by
  cases path with
  | none =>
    cases h
    rfl
  | some path => exact value_of_readFile? h key

end SettingKey

end RepoGraph
