import RepoGraph.Json.Reader
import RepoGraph.Manifest.Lines
import RepoGraph.Toml.Times
/-!
# Reading manifests

The kind of a manifest is told by its file name.
-/
namespace RepoGraph

inductive ManifestError where
  | unrecognized (path : String)
  | json
  | toml
  deriving DecidableEq, Repr

def ManifestError.unrecognizedMessage (path : String) : String :=
  "Unrecognized manifest file: " ++ path

namespace Manifest

def jsonSection (value : JsonValue) (name : String) : List (String × String) :=
  match value.member? name with
  | some part => part.sortedMembers.map fun (package, version) =>
    (package, version.text?.getD anyVersion)
  | none => []

def ofJson (manifest : Manifest) (value : JsonValue) (sections : List String) : Manifest :=
  { manifest with name := (value.member? "name").bind JsonValue.text? }.declareAll
    (sections.flatMap (jsonSection value))

/-- The version of an entry: a text, or what a table says of the version or of the place that the
package comes from. -/
def entryVersion (entry : TomlValue) : String :=
  let named := fun key => (entry.get? key).bind TomlValue.text?
  match entry with
  | .text version => version
  | .table _ =>
    match named "version", named "path", (entry.get? "workspace").bind TomlValue.bool?,
      named "git" with
    | some version, _, _, _ => version
    | none, some path, _, _ => "path:" ++ path
    | none, none, some true, _ => "workspace"
    | none, none, _, some url => "git:" ++ url
    | none, none, _, none => anyVersion
  | _ => anyVersion

def tomlSection (part : Option TomlValue) : List (String × String) :=
  match part with
  | some table => table.sortedEntries.map fun (package, entry) => (package, entryVersion entry)
  | none => []

def tomlAt? (value : TomlValue) (path : List String) : Option TomlValue :=
  path.foldlM (fun value key => value.get? key) value

def cargoSections : List (List String) :=
  [["dependencies"], ["build-dependencies"], ["dev-dependencies"], ["workspace", "dependencies"]]

def ofCargo (manifest : Manifest) (value : TomlValue) : Manifest :=
  { manifest with name := (tomlAt? value ["package", "name"]).bind TomlValue.text? }.declareAll
    (cargoSections.flatMap fun path => tomlSection (tomlAt? value path))

/-- Reads a `pyproject.toml`: the list of requirements of the project and the table of Poetry, in
which `python` is no package. -/
def ofPyproject (manifest : Manifest) (value : TomlValue) : Manifest :=
  let project := value.get? "project"
  let poetry := tomlAt? value ["tool", "poetry"]
  let listed := ((project.bind (·.get? "dependencies")).bind TomlValue.items?).getD []
  let requirements := (listed.filterMap TomlValue.text?).filterMap fun text =>
    requirement? text.toList
  let tabled := (tomlSection (poetry.bind (·.get? "dependencies"))).filter (·.1 ≠ "python")
  { manifest with name := ((project.or poetry).bind (·.get? "name")).bind TomlValue.text?
    }.declareAll (requirements ++ tabled)

def npmSections : List String :=
  ["dependencies", "peerDependencies", "optionalDependencies", "devDependencies"]

def composerSections : List String := ["require", "require-dev"]

def read (path : String) (kind : ManifestKind) (content : String) : Except ManifestError Manifest :=
  let manifest := empty path kind
  let json := fun sections => match JsonValue.parseStrict? content with
    | some value => .ok (manifest.ofJson value sections)
    | none => .error .json
  let toml := fun build => match TomlValue.parseWithTimes? content with
    | some value => .ok (build manifest value)
    | none => .error .toml
  match kind with
  | .packageJson => json npmSections
  | .composerJson => json composerSections
  | .cargoToml => toml ofCargo
  | .pyprojectToml => toml ofPyproject
  | .requirements => .ok (manifest.declareAll (requirementLines content.toList))
  | .goMod =>
    .ok ((goStatements false (Text.lines content.toList)).foldl addGoStatement manifest)
  | .gemfile => .ok (manifest.declareAll (gemLines content.toList))

def parse (path content : String) : Except ManifestError Manifest :=
  match ManifestKind.ofFileName? (Path.fileName path) with
  | some kind => read path kind content
  | none => .error (.unrecognized path)

end Manifest

end RepoGraph
