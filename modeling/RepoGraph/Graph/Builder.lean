import RepoGraph.Graph.Basic
import RepoGraph.Resolve
/-!
# Building the graph

Every file becomes a node, and every reference that points somewhere an edge, or one more count on
an edge. The order of the references does not matter for the sets of nodes and edges.
-/
namespace RepoGraph

/-- A graph under construction, and how many references an edge counts and how many point nowhere.
These count calls and have no width, unlike the sizes in `GraphStats`, which any text may tell. -/
structure GraphBuilder where
  graph : Graph := {}
  resolved : Nat := 0
  dropped : Nat := 0

/-- The node that stands for a target, as a file sees it: the version of a package is the one
declared for that file. -/
def RepoIndex.targetNode (index : RepoIndex) (file : String) (target : Target) : Node :=
  match target with
  | .internal id language => .internal id (some language)
  | .external ecosystem package _ =>
    .external target.nodeId package
      { language := some ecosystem.language
        packageManager := ecosystem.packageManager?
        packageName := some package
        packageVersion := index.declaredVersion? file ecosystem package }

namespace GraphBuilder

def addFile (builder : GraphBuilder) (file : SourceFile) : GraphBuilder :=
  { builder with graph := (builder.graph.upsert (.internal file.path (some file.language))).1 }

def drop : GraphBuilder → GraphBuilder × Bool
  | ⟨graph, resolved, dropped⟩ => (⟨graph, resolved, dropped + 1⟩, false)

/-- Counts a reference of a file to a target. A target that is the file itself gets no edge. -/
def link (index : RepoIndex) (file : String) (language : Language) (target : Target) :
    GraphBuilder → GraphBuilder × Bool
  | ⟨graph, resolved, dropped⟩ =>
    let (graph, _) := graph.upsert (.internal file (some language))
    let (graph, _) := graph.upsert (index.targetNode file target)
    match graph.addReference file target.nodeId with
    | (graph, some _) => (⟨graph, resolved + 1, dropped⟩, true)
    | (graph, none) => (⟨graph, resolved, dropped + 1⟩, false)

/-- Resolves a reference and counts it. Also whether an edge counts it. -/
def addReference (index : RepoIndex) (builder : GraphBuilder) (reference : Reference) :
    GraphBuilder × Bool :=
  match index.resolve? reference, index.importingLanguage? reference.fromFile with
  | some target, some language => builder.link index reference.fromFile language target
  | _, _ => builder.drop

end GraphBuilder

/-- The graph of files and their references. -/
def Graph.build (index : RepoIndex) (files : List SourceFile) (references : List Reference) :
    Graph :=
  let builder := files.foldl GraphBuilder.addFile {}
  (references.foldl (fun builder reference => (builder.addReference index reference).1)
    builder).graph

end RepoGraph
