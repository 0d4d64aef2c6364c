import RepoGraph.Ecosystem
import RepoGraph.Graph.Basic
import RepoGraph.Target
import Std.Data.HashSet
/-!
# Bounded views of a graph

A view shows the nodes with the most edges, and the heaviest edges between them. Modules of the
repository and packages are bounded apart. The sizes in a view are those of the whole graph.
-/
namespace RepoGraph

structure ViewLimits where
  /-- The bound on the number of nodes; half of it for modules and half for packages. -/
  nodeCap : UInt64 := 200
  minWeight : UInt32 := 2
  maxEdges : UInt64 := 400
  deriving DecidableEq, Repr, Inhabited

/-- The number of modules, and of packages, that a view shows at most. -/
def ViewLimits.perKind (limits : ViewLimits) : Nat := max (limits.nodeCap.toNat / 2) 10

structure GraphView where
  nodes : List Node
  edges : List Edge
  /-- The sizes of the whole graph. -/
  stats : GraphStats
  deriving DecidableEq, Repr, Inhabited

namespace GraphView

/-- Whether a node with one number of edges is shown before another: the one with more edges, then
the one with the smaller id. -/
def ranksBefore (degree : String → Nat) (a b : Node) : Bool :=
  degree b.id < degree a.id || (degree a.id == degree b.id && a.id ≤ b.id)

/-- Whether an edge is shown before another: the heavier one, then by source and target. -/
def showsBefore (a b : Edge) : Bool :=
  b.weight < a.weight ||
    (a.weight == b.weight && (a.source < b.source || (a.source == b.source && a.target ≤ b.target)))

def joins (ids : Std.HashSet String) (edge : Edge) : Bool :=
  ids.contains edge.source && ids.contains edge.target

def idSet (nodes : List Node) : Std.HashSet String := Std.HashSet.ofList (nodes.map (·.id))

def edgesBetween (nodes : List Node) (edges : List Edge) : List Edge :=
  edges.filter (joins (idSet nodes))

/-- The view of a graph within bounds. -/
def ofGraph (graph : Graph) (limits : ViewLimits) : GraphView :=
  let table := graph.degreeTable
  let top := fun (nodes : List Node) =>
    (nodes.mergeSort (ranksBefore (table.getD · 0))).take limits.perKind
  let nodes := top (graph.nodes.toList.filter (·.isInternal)) ++
    top (graph.nodes.toList.filter (!·.isInternal))
  let heavy := graph.edges.toList.filter (limits.minWeight ≤ ·.weight)
  { nodes
    edges := ((edgesBetween nodes heavy).mergeSort showsBefore).take limits.maxEdges.toNat
    stats := graph.stats }

/-- Whether the id of a package starts with the name of one of the ecosystems shown with a
language. -/
def isCompanion (language : Language) (id : String) : Bool :=
  language.companions.any fun ecosystem =>
    Text.startsWith (ecosystem.packageId "").toList id.toList

def belongsTo (language : Language) (node : Node) : Bool :=
  if node.isInternal then node.details.language.any (·.family = language.family)
  else isCompanion language node.id

/-- The part of a view that a filter keeps, with the edges inside it. -/
def restrict (view : GraphView) : LanguageFilter → GraphView
  | .all => view
  | .only language =>
    let nodes := view.nodes.filter (belongsTo language)
    { view with nodes, edges := edgesBetween nodes view.edges }

def node? (view : GraphView) (id : String) : Option Node := view.nodes.find? (·.id == id)

end GraphView

end RepoGraph
