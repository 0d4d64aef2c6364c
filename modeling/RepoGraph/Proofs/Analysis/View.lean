import RepoGraph.Proofs.Analysis.Depiction
import RepoGraph.Proofs.View.Shape

/-!
# The view of a tree

Options that pass their check leave room for both kinds of nodes and ask for a weight, so the view
of a tree has the shape that its limits describe.
-/

namespace RepoGraph

private theorem AnalysisOptions.limits_of_error? {options : AnalysisOptions}
    (h : options.error? = none) :
    20 ≤ options.viewLimits.nodeCap.toNat ∧ 1 ≤ options.viewLimits.minWeight := by
  unfold error? at h
  split at h
  · cases h
  split at h
  · cases h
  rename_i hweight
  split at h
  · cases h
  rename_i hcap
  exact ⟨Nat.not_lt.mp hcap, UInt32.not_lt.mp hweight⟩

namespace RepoTree

theorem view_eq_ok_iff {tree : RepoTree} {options : AnalysisOptions} {view : GraphView} :
    tree.view options = .ok view ↔
      ∃ graph, tree.graph options = .ok graph ∧
        (GraphView.ofGraph graph options.viewLimits).restrict options.filter = view := by
  rw [RepoTree.view]
  cases tree.graph options with
  | error error => simp [Except.map]
  | ok graph => simp [Except.map]

/-- Every tree that has a view has a well-formed one, with the sizes of its whole graph. -/
theorem view_wellFormed {tree : RepoTree} {options : AnalysisOptions} {view : GraphView}
    (h : tree.view options = .ok view) :
    view.WellFormed options.viewLimits ∧
      ∃ graph, tree.graph options = .ok graph ∧ view.stats = graph.stats := by
  obtain ⟨graph, hgraph, rfl⟩ := view_eq_ok_iff.mp h
  obtain ⟨hvalid, collection, -, rfl⟩ := graph_eq_ok_iff.mp hgraph
  obtain ⟨hcap, hweight⟩ := AnalysisOptions.limits_of_error? hvalid
  have hselects := GraphView.selects_ofGraph collection.consistent_graph options.viewLimits
  refine ⟨?_, collection.graph, hgraph, ?_⟩
  · exact (hselects.wellFormed collection.consistent_graph hcap hweight).restrict options.filter
  · rw [GraphView.stats_restrict, hselects.stats]

theorem view_wellFormed_importTree :
    ∃ view, importTree.view unsampled = .ok view ∧ view.nodes.length ≤ 200 := by
  obtain ⟨collection, -, hgraph, -⟩ := graph_importTree
  have hview : importTree.view unsampled =
      .ok (GraphView.ofGraph collection.graph unsampled.viewLimits) :=
    view_eq_ok_iff.mpr ⟨collection.graph, hgraph, rfl⟩
  exact ⟨_, hview, (view_wellFormed hview).1.nodes_le⟩

end RepoTree

end RepoGraph
