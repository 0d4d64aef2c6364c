import RepoGraph.Language
import Std.Data.HashMap
/-!
# The dependency graph

Nodes are modules of the repository and packages outside it, each with an id of its own. An edge
counts the references from one node to another; there are no loops. Nodes and edges are kept in the
order in which they came.
-/
namespace RepoGraph

/-- Whether a node stands for a module of the repository or for a package outside it. -/
inductive NodeKind where
  | internal | external
  deriving DecidableEq, Repr, Inhabited

structure NodeDetails where
  language : Option Language := none
  packageManager : Option String := none
  packageName : Option String := none
  packageVersion : Option String := none
  deriving DecidableEq, Repr, Inhabited

namespace NodeDetails

def isEmpty (details : NodeDetails) : Bool :=
  details.language.isNone && details.packageManager.isNone && details.packageName.isNone &&
    details.packageVersion.isNone

def smallerVersion : Option String → Option String → Option String
  | some a, some b => some (if b < a then b else a)
  | a, b => a.or b

/-- What is known from two sources. The first counts where both know something, but of two versions
the smaller one stays, whichever came first. -/
def merge (first second : NodeDetails) : NodeDetails where
  language := first.language.or second.language
  packageManager := first.packageManager.or second.packageManager
  packageName := first.packageName.or second.packageName
  packageVersion := smallerVersion first.packageVersion second.packageVersion

end NodeDetails

structure Node where
  id : String
  label : String
  kind : NodeKind
  details : NodeDetails := {}
  deriving DecidableEq, Repr, Inhabited

namespace Node

def internal (id : String) (language : Option Language) : Node :=
  { id, label := id, kind := .internal, details := { language } }

def external (id package : String) (details : NodeDetails) : Node :=
  { id, label := package, kind := .external, details }

def isInternal (node : Node) : Bool := node.kind = .internal

end Node

structure Edge where
  source : String
  target : String
  weight : UInt32
  deriving DecidableEq, Repr, Inhabited

def Edge.touches (edge : Edge) (id : String) : Bool := edge.source == id || edge.target == id

structure GraphStats where
  nodeCount : UInt64
  edgeCount : UInt64
  internalNodeCount : UInt64
  externalNodeCount : UInt64
  deriving DecidableEq, Repr, Inhabited

structure Graph where
  nodes : Array Node := #[]
  edges : Array Edge := #[]
  nodeAt : Std.HashMap String Nat := {}
  edgeAt : Std.HashMap (String × String) Nat := {}

namespace Graph

def contains (graph : Graph) (id : String) : Bool := graph.nodeAt.contains id

def node? (graph : Graph) (id : String) : Option Node :=
  graph.nodeAt[id]?.bind fun i => graph.nodes[i]?

def edge? (graph : Graph) (source target : String) : Option Edge :=
  graph.edgeAt[(source, target)]?.bind fun i => graph.edges[i]?

def weight? (graph : Graph) (source target : String) : Option UInt32 :=
  (graph.edge? source target).map (·.weight)

/-- Adds a node, or merges its details into those of the node with its id. Also its position. -/
def upsert (graph : Graph) (node : Node) : Graph × Nat :=
  match graph.nodeAt[node.id]? with
  | some i =>
    ({ graph with nodes := graph.nodes.modify i fun known =>
        { known with details := known.details.merge node.details } }, i)
  | none =>
    ({ graph with
        nodes := graph.nodes.push node
        nodeAt := graph.nodeAt.insert node.id graph.nodes.size }, graph.nodes.size)

/-- Counts one more reference between two nodes, if both exist and differ. Also the position of the
edge. -/
def addReference (graph : Graph) (source target : String) : Graph × Option Nat :=
  if source = target ∨ !graph.contains source ∨ !graph.contains target then (graph, none)
  else
    match graph.edgeAt[(source, target)]? with
    | some i =>
      ({ graph with edges := graph.edges.modify i fun edge =>
          { edge with weight := edge.weight + 1 } }, some i)
    | none =>
      ({ graph with
          edges := graph.edges.push ⟨source, target, 1⟩
          edgeAt := graph.edgeAt.insert (source, target) graph.edges.size },
        some graph.edges.size)

def degree (graph : Graph) (id : String) : Nat :=
  graph.edges.countP (·.touches id)

def countEnds (table : Std.HashMap String Nat) (edge : Edge) : Std.HashMap String Nat :=
  let table := table.insert edge.source (table.getD edge.source 0 + 1)
  table.insert edge.target (table.getD edge.target 0 + 1)

def degreeTable (graph : Graph) : Std.HashMap String Nat :=
  graph.edges.foldl countEnds (.ofList (graph.nodes.toList.map fun node => (node.id, 0)))

def stats (graph : Graph) : GraphStats :=
  let internal := graph.nodes.countP (·.isInternal)
  { nodeCount := graph.nodes.size.toUInt64
    edgeCount := graph.edges.size.toUInt64
    internalNodeCount := internal.toUInt64
    externalNodeCount := (graph.nodes.size - internal).toUInt64 }

inductive Change where
  | upsert (node : Node)
  | reference (source target : String)

def apply (graph : Graph) : Change → Graph
  | .upsert node => (graph.upsert node).1
  | .reference source target => (graph.addReference source target).1

def ofChanges (changes : List Change) : Graph := changes.foldl apply {}

end Graph

end RepoGraph
