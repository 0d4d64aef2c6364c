import RepoGraph.Proofs.Analysis.View
import RepoGraph.Proofs.Graph.Commutation

/-!
# The view of one language

A view is restricted to a language by two criteria: a module is told by the language that is known
of it, a package by the ecosystem that its id names. In the graph of a tree every node has a
language, and a package that of its ecosystem, so that both criteria ask for the language's family.
-/

namespace RepoGraph

namespace Ecosystem

private theorem mem_companions_iff (language : Language) (ecosystem : Ecosystem) :
    ecosystem ∈ language.companions ↔ ecosystem.language.family = language.family := by
  cases language <;> cases ecosystem <;> decide

private theorem isCompanion_packageId (language : Language) (ecosystem : Ecosystem)
    (package : String) :
    GraphView.isCompanion language (ecosystem.packageId package) =
      decide (ecosystem.language.family = language.family) := by
  rw [Bool.eq_iff_iff, decide_eq_true_iff, ← mem_companions_iff, GraphView.isCompanion,
    List.any_eq_true]
  simp only [startsWith_packageId, decide_eq_true_iff]
  constructor
  · rintro ⟨companion, hmem, rfl⟩
    exact hmem
  · intro hmem
    exact ⟨ecosystem, hmem, rfl⟩

end Ecosystem

namespace GraphView

private theorem belongsTo_congr {a b : Node} (hid : a.id = b.id) (hkind : a.kind = b.kind)
    (hlanguage : a.details.language = b.details.language) (language : Language) :
    belongsTo language a = belongsTo language b := by
  rw [belongsTo, belongsTo, Node.isInternal, Node.isInternal, hid, hkind, hlanguage]

private theorem belongsTo_of_isBuilt {node : Node} (h : node.IsBuilt) (language : Language) :
    belongsTo language node = node.details.language.any (·.family = language.family) := by
  cases h with
  | module id known => rfl
  | package ecosystem package version => exact ecosystem.isCompanion_packageId language package

private theorem Selects.mem_nodes {view : GraphView} {graph : Graph} {limits : ViewLimits}
    (hs : view.Selects graph limits) {node : Node} (hnode : node ∈ view.nodes) :
    node ∈ graph.nodes := by
  obtain ⟨modules, packages, hm, hp, heq⟩ := hs.nodes
  rw [heq, List.mem_append] at hnode
  rcases hnode with hnode | hnode
  · exact Array.mem_toList_iff.mp (List.mem_filter.mp (hm.mem hnode)).1
  · exact Array.mem_toList_iff.mp (List.mem_filter.mp (hp.mem hnode)).1

end GraphView

namespace Graph

variable {index : RepoIndex} {files : List SourceFile} {references : List Reference} {node : Node}

private theorem exists_isBuilt_of_mem_build (h : node ∈ (build index files references).nodes) :
    ∃ first : Node, first.IsBuilt ∧ node.id = first.id ∧ node.kind = first.kind ∧
      node.details.language = first.details.language := by
  have hnode := (mem_nodes_iff_node? (consistent_build index files references)).mp h
  rw [RepoIndex.node?_build, absorbAll_none] at hnode
  obtain ⟨first, hfirst, heq⟩ := Option.map_eq_some_iff.mp hnode
  obtain ⟨rest, hrest⟩ := List.head?_eq_some_iff.mp hfirst
  have hbuilt : first.IsBuilt := (RepoIndex.of_mem_historyNodes (List.mem_of_head? hfirst)).1
  obtain ⟨language, hlanguage⟩ := Option.isSome_iff_exists.mp hbuilt.isSome_language
  refine ⟨first, hbuilt, (congrArg Node.id heq).symm, (congrArg Node.kind heq).symm, ?_⟩
  -- Merging keeps the language that the first node brings in.
  have hmerged := congrArg (·.details.language) heq
  dsimp only at hmerged
  rw [hrest, findSome?_cons_eq_or, hlanguage, Option.some_or] at hmerged
  rw [← hmerged, hlanguage]

private theorem isSome_language_of_mem_build (h : node ∈ (build index files references).nodes) :
    node.details.language.isSome := by
  obtain ⟨first, hbuilt, -, -, hlanguage⟩ := exists_isBuilt_of_mem_build h
  rw [hlanguage]
  exact hbuilt.isSome_language

private theorem belongsTo_of_mem_build (h : node ∈ (build index files references).nodes)
    (language : Language) : GraphView.belongsTo language node =
      node.details.language.any (·.family = language.family) := by
  obtain ⟨first, hbuilt, hid, hkind, hlanguage⟩ := exists_isBuilt_of_mem_build h
  rw [GraphView.belongsTo_congr hid hkind hlanguage, GraphView.belongsTo_of_isBuilt hbuilt,
    hlanguage]

end Graph

namespace RepoTree

/-- Every node of the graph of a tree has a language. A view of it that is restricted to a language
keeps the nodes whose language is of the same family, packages no less than modules, and the edges
between them, all in their order. -/
theorem restrict_keeps_family {tree : RepoTree} {options : AnalysisOptions} {graph : Graph}
    (h : tree.graph options = .ok graph) :
    (∀ node ∈ graph.nodes, node.details.language.isSome) ∧
    ∀ (limits : ViewLimits) (language : Language),
      let view := GraphView.ofGraph graph limits
      let part := view.restrict (.only language)
      part.nodes = view.nodes.filter
          (fun node => node.details.language.any (·.family = language.family)) ∧
        part.edges = view.edges.filter fun edge =>
          edge.source ∈ part.nodes.map (·.id) ∧ edge.target ∈ part.nodes.map (·.id) := by
  obtain ⟨-, collection, -, rfl⟩ := graph_eq_ok_iff.mp h
  refine ⟨fun node hnode => Graph.isSome_language_of_mem_build hnode, ?_⟩
  intro limits language view part
  have hselects : view.Selects collection.graph limits :=
    GraphView.selects_ofGraph collection.consistent_graph limits
  constructor
  · apply List.filter_congr
    intro node hnode
    exact Graph.belongsTo_of_mem_build (hselects.mem_nodes hnode) language
  · apply List.filter_congr
    intro edge _
    rw [Bool.eq_iff_iff, GraphView.joins_idSet_iff, decide_eq_true_iff]
    rfl

theorem restrict_keeps_family_importTree :
    ∃ graph, importTree.graph unsampled = .ok graph ∧
      ((GraphView.ofGraph graph {}).restrict (.only .python)).nodes =
        (GraphView.ofGraph graph {}).nodes.filter
          (fun node => node.details.language.any (·.family = .python)) := by
  obtain ⟨collection, -, hgraph, -⟩ := graph_importTree
  exact ⟨collection.graph, hgraph, ((restrict_keeps_family hgraph).2 {} .python).1⟩

end RepoTree

end RepoGraph
