import RepoGraph.Json.Decode
import RepoGraph.Json.Reader
import RepoGraph.Json.Writer
import RepoGraph.Sha256
import RepoGraph.View.Basic
/-!
# Views as JSON

The written form of a view, its fingerprint, and reading it back.
-/
namespace RepoGraph

namespace Language

def toJson (language : Language) : JsonValue := .ofString language.name

def ofJson? (value : JsonValue) : Option Language := value.choice?.bind ofName?

end Language

namespace NodeKind

def name : NodeKind → String
  | internal => "internal"
  | external => "external"

def ofName? : String → Option NodeKind
  | "internal" => some internal
  | "external" => some external
  | _ => none

end NodeKind

namespace NodeDetails

def toJson (details : NodeDetails) : JsonValue :=
  .ofMembers <|
    (details.language.map fun l => ("language", l.toJson)).toList ++
    (details.packageManager.map fun s => ("packageManager", .ofString s)).toList ++
    (details.packageName.map fun s => ("packageName", .ofString s)).toList ++
    (details.packageVersion.map fun s => ("packageVersion", .ofString s)).toList

def ofJson? (value : JsonValue) : Option NodeDetails := do
  match ← value.fields? ["language", "packageManager", "packageName", "packageVersion"] with
  | [language, packageManager, packageName, packageVersion] =>
    some {
      language := ← JsonValue.optional? Language.ofJson? language
      packageManager := ← JsonValue.optional? JsonValue.text? packageManager
      packageName := ← JsonValue.optional? JsonValue.text? packageName
      packageVersion := ← JsonValue.optional? JsonValue.text? packageVersion }
  | _ => none

end NodeDetails

namespace Node

def toJson (node : Node) : JsonValue :=
  .ofMembers <|
    [("id", .ofString node.id), ("label", .ofString node.label),
      ("type", .ofString node.kind.name)] ++
    if node.details.isEmpty then [] else [("meta", node.details.toJson)]

def ofJson? (value : JsonValue) : Option Node := do
  match ← value.fields? ["id", "label", "type", "meta"] with
  | [some id, some label, some kind, details] =>
    some {
      id := ← id.text?
      label := ← label.text?
      kind := ← kind.choice?.bind NodeKind.ofName?
      details := ← match details with
        | some details => NodeDetails.ofJson? details
        | none => some {} }
  | _ => none

end Node

namespace Edge

def toJson (edge : Edge) : JsonValue :=
  .ofMembers [("source", .ofString edge.source), ("target", .ofString edge.target),
    ("weight", .ofNat edge.weight.toNat)]

def ofJson? (value : JsonValue) : Option Edge := do
  match ← value.fields? ["source", "target", "weight"] with
  | [some source, some target, some weight] =>
    some { source := ← source.text?, target := ← target.text?, weight := ← weight.word32? }
  | _ => none

end Edge

namespace GraphStats

def toJson (stats : GraphStats) : JsonValue :=
  .ofMembers [("nodeCount", .ofNat stats.nodeCount.toNat),
    ("edgeCount", .ofNat stats.edgeCount.toNat),
    ("internalNodeCount", .ofNat stats.internalNodeCount.toNat),
    ("externalNodeCount", .ofNat stats.externalNodeCount.toNat)]

def ofJson? (value : JsonValue) : Option GraphStats := do
  match ← value.fields? ["nodeCount", "edgeCount", "internalNodeCount", "externalNodeCount"] with
  | [some nodes, some edges, some internal, some external] =>
    some {
      nodeCount := ← nodes.word64?
      edgeCount := ← edges.word64?
      internalNodeCount := ← internal.word64?
      externalNodeCount := ← external.word64? }
  | _ => none

end GraphStats

namespace GraphView

def toJson (view : GraphView) : JsonValue :=
  .ofMembers [("nodes", .array (view.nodes.map Node.toJson)),
    ("edges", .array (view.edges.map Edge.toJson)), ("stats", view.stats.toJson)]

def ofJson? (value : JsonValue) : Option GraphView := do
  match ← value.fields? ["nodes", "edges", "stats"] with
  | [some nodes, some edges, some stats] =>
    some {
      nodes := ← nodes.list? Node.ofJson?
      edges := ← edges.list? Edge.ofJson?
      stats := ← GraphStats.ofJson? stats }
  | _ => none

def render (layout : JsonLayout) (view : GraphView) : String := view.toJson.render layout

def parse? (text : String) : Option GraphView := (JsonValue.parse? text).bind ofJson?

/-- The SHA-256 hash of the compact text of a view. -/
def fingerprint (view : GraphView) : String := Sha256.hexDigest (view.render .compact)

end GraphView

end RepoGraph
