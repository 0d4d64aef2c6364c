import RepoGraph.Command.Failure
import RepoGraph.Settings.Json
import RepoGraph.View.Json
/-!
# Reports

What commands print.
-/
namespace RepoGraph

def joinLines (lines : List String) : String := String.join (lines.map (· ++ "\n"))

def JsonValue.page (value : JsonValue) : String := value.render .indented ++ "\n"

namespace GraphView

def topNodes (view : GraphView) (kind : NodeKind) (top : Nat) : List Node :=
  (view.nodes.filter (·.kind = kind)).take top

def summaryJson (view : GraphView) (top : Nat) : JsonValue :=
  .ofMembers [("stats", view.stats.toJson), ("renderedNodes", .ofNat view.nodes.length),
    ("renderedEdges", .ofNat view.edges.length),
    ("topInternal", .array ((view.topNodes .internal top).map fun node => .ofString node.id)),
    ("topExternal", .array ((view.topNodes .external top).map fun node => .ofString node.id)),
    ("heaviestEdges", .array ((view.edges.take top).map Edge.toJson))]

/-- The line for a node: its label with a version if it has one; otherwise a node inside the
repository shows its language. -/
def nodeLine (node : Node) : String :=
  match node.details.packageVersion, node.details.language, node.kind with
  | some version, _, _ => "  " ++ node.label ++ " (" ++ version ++ ")"
  | none, some language, .internal => "  " ++ node.id ++ " [" ++ language.name ++ "]"
  | none, _, _ => "  " ++ node.label

def edgeLine (edge : Edge) : String :=
  "  " ++ Failure.padded 4 edge.weight.toNat ++ "  " ++ edge.source ++ " -> " ++ edge.target

def titled (title : String) (lines : List String) : List String :=
  if lines.isEmpty then [] else "" :: (title ++ ":") :: lines

def summary (view : GraphView) (top : Nat) : String :=
  joinLines <|
    ["Architecture Graph", "==================", "",
      "Nodes: " ++ toString view.stats.nodeCount.toNat,
      "  Internal: " ++ toString view.stats.internalNodeCount.toNat,
      "  External: " ++ toString view.stats.externalNodeCount.toNat,
      "Edges: " ++ toString view.stats.edgeCount.toNat,
      "Rendered: " ++ toString view.nodes.length ++ " nodes, " ++ toString view.edges.length ++
        " edges"] ++
    titled "Top internal modules" ((view.topNodes .internal top).map nodeLine) ++
    titled "Top external packages" ((view.topNodes .external top).map nodeLine) ++
    titled "Heaviest edges" ((view.edges.take top).map edgeLine)

end GraphView

namespace SourcedSetting

/-- The line for a setting; the usual values show no source. -/
def line (setting : SourcedSetting) : String :=
  setting.name.key ++ " = " ++ setting.value.toJson.render .compact ++
    if setting.source = .usual then "" else "  (" ++ setting.source.name ++ ")"

def linesFrom (group : String) : List SourcedSetting → List String
  | [] => []
  | setting :: rest =>
    let header :=
      if setting.name.group = group then []
      else (if group.isEmpty then [] else [""]) ++ ["[" ++ setting.name.group ++ "]"]
    header ++ setting.line :: linesFrom setting.name.group rest

def page (settings : List SourcedSetting) : String :=
  joinLines (["archgraph Configuration", "=======================", ""] ++ linesFrom "" settings)

def pageJson (settings : List SourcedSetting) : String :=
  (JsonValue.array (settings.map toJson)).page

end SourcedSetting

structure SettingsPaths where
  user : Option (String × Bool)
  checkout : String × Bool
  deriving DecidableEq, Repr

namespace SettingsPaths

def toJson (paths : SettingsPaths) : JsonValue :=
  .ofMembers [("global", match paths.user with
      | some (path, _) => .ofString path
      | none => .null),
    ("local", .ofString paths.checkout.1),
    ("global_exists", .bool ((paths.user.map (·.2)).getD false)),
    ("local_exists", .bool paths.checkout.2)]

def status : String × Bool → String
  | (path, true) => path ++ " (exists)"
  | (path, false) => path ++ " (not found)"

def page (paths : SettingsPaths) : String :=
  joinLines ["Configuration Paths", "===================", "",
    "Global: " ++ (match paths.user with
      | some user => status user
      | none => "not available (no home directory)"),
    "Local:  " ++ status paths.checkout]

end SettingsPaths

end RepoGraph
