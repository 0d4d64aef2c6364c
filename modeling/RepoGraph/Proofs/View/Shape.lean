import RepoGraph.Proofs.View.Selection

/-!
# The shape of a view

What every view within limits looks like: modules before packages, neither more than their share,
and strictly ordered edges between the nodes that are shown. A selection from a graph has this shape
and leaving out nodes keeps it.
-/

namespace RepoGraph.GraphView

/-- The shape of a view within limits. -/
structure WellFormed (view : GraphView) (limits : ViewLimits) : Prop where
  ids_nodup : (view.nodes.map (·.id)).Nodup
  modules_first : view.nodes.Pairwise fun a b => b.isInternal → a.isInternal
  modules_le : view.nodes.countP (·.isInternal) ≤ max (limits.nodeCap.toNat / 2) 10
  packages_le : view.nodes.countP (!·.isInternal) ≤ max (limits.nodeCap.toNat / 2) 10
  nodes_le : view.nodes.length ≤ limits.nodeCap.toNat
  ends_mem : ∀ edge ∈ view.edges,
    edge.source ∈ view.nodes.map (·.id) ∧ edge.target ∈ view.nodes.map (·.id)
  source_ne_target : ∀ edge ∈ view.edges, edge.source ≠ edge.target
  weight_ge : ∀ edge ∈ view.edges, limits.minWeight ≤ edge.weight ∧ 1 ≤ edge.weight
  ends_nodup : (view.edges.map Edge.ends).Nodup
  edges_le : view.edges.length ≤ limits.maxEdges.toNat
  edges_sorted : view.edges.Pairwise Edge.Outweighs

private theorem id_ne_of_outranks {graph : Graph} {a b : Node} (h : graph.Outranks a b) :
    a.id ≠ b.id := by
  intro hid
  rcases h with hlt | ⟨-, hlt⟩
  · rw [hid] at hlt
    exact Nat.lt_irrefl _ hlt
  · rw [hid] at hlt
    exact List.lt_irrefl _ hlt

namespace Selects

variable {view : GraphView} {graph : Graph} {limits : ViewLimits}

private theorem mem_edges (hs : view.Selects graph limits) {edge : Edge}
    (hedge : edge ∈ view.edges) :
    edge ∈ graph.edges ∧ limits.minWeight ≤ edge.weight ∧
      edge.source ∈ view.nodes.map (·.id) ∧ edge.target ∈ view.nodes.map (·.id) := by
  have hmem := List.mem_filter.mp (hs.edges.mem hedge)
  exact ⟨Array.mem_toList_iff.mp hmem.1, of_decide_eq_true hmem.2⟩

/-- The ids of the first modules and the first packages are different: within a kind by rank, and
across the kinds since the graph has one node for an id. -/
theorem ids_nodup (h : graph.Consistent) (hs : view.Selects graph limits) :
    (view.nodes.map (·.id)).Nodup := by
  obtain ⟨modules, packages, hm, hp, heq⟩ := hs.nodes
  rw [heq, List.Nodup, List.pairwise_map, List.pairwise_append]
  refine ⟨hm.pairwise.imp id_ne_of_outranks, hp.pairwise.imp id_ne_of_outranks, ?_⟩
  intro a ha b hb hid
  obtain ⟨ha', hinternal⟩ := List.mem_filter.mp (hm.mem ha)
  obtain ⟨hb', hexternal⟩ := List.mem_filter.mp (hp.mem hb)
  have hab : a = b :=
    h.nodes.eq_of_key_eq (Array.mem_toList_iff.mp ha') (Array.mem_toList_iff.mp hb') hid
  rw [hab] at hinternal
  rw [hinternal] at hexternal
  cases hexternal

private theorem nodes_eq_append (hs : view.Selects graph limits) :
    ∃ modules packages, view.nodes = modules ++ packages ∧
      (∀ node ∈ modules, node.isInternal = true) ∧ modules.length ≤ limits.perKind ∧
      (∀ node ∈ packages, node.isInternal = false) ∧ packages.length ≤ limits.perKind := by
  obtain ⟨modules, packages, hm, hp, heq⟩ := hs.nodes
  refine ⟨modules, packages, heq, ?_, hm.length_le, ?_, hp.length_le⟩
  · intro node hnode
    exact (List.mem_filter.mp (hm.mem hnode)).2
  · intro node hnode
    exact (Bool.not_eq_true' _).mp (List.mem_filter.mp (hp.mem hnode)).2

private theorem modules_first (hs : view.Selects graph limits) :
    view.nodes.Pairwise fun a b => b.isInternal → a.isInternal := by
  obtain ⟨modules, packages, heq, hm, -, hp, -⟩ := hs.nodes_eq_append
  rw [heq, List.pairwise_append]
  refine ⟨?_, ?_, ?_⟩
  · apply List.pairwise_of_forall_mem_list
    intro a ha _ _ _
    exact hm a ha
  · apply List.pairwise_of_forall_mem_list
    intro _ _ b hb hinternal
    rw [hp b hb] at hinternal
    cases hinternal
  · intro a ha _ _ _
    exact hm a ha

private theorem countP_add_le {p : Node → Bool} {part rest : List Node} {bound : Nat}
    (hpart : part.length ≤ bound) (hrest : ∀ node ∈ rest, p node = false) :
    part.countP p + rest.countP p ≤ bound := by
  have hzero : rest.countP p = 0 := by
    apply List.countP_eq_zero.mpr
    intro node hnode
    rw [hrest node hnode]
    exact Bool.false_ne_true
  rw [hzero, Nat.add_zero]
  exact Nat.le_trans List.countP_le_length hpart

private theorem countP_modules_le (hs : view.Selects graph limits) :
    view.nodes.countP (·.isInternal) ≤ limits.perKind := by
  obtain ⟨modules, packages, heq, -, hmlen, hp, -⟩ := hs.nodes_eq_append
  rw [heq, List.countP_append]
  exact countP_add_le hmlen hp

private theorem countP_packages_le (hs : view.Selects graph limits) :
    view.nodes.countP (!·.isInternal) ≤ limits.perKind := by
  obtain ⟨modules, packages, heq, hm, -, -, hplen⟩ := hs.nodes_eq_append
  rw [heq, List.countP_append, Nat.add_comm]
  apply countP_add_le hplen
  intro node hnode
  rw [hm node hnode]
  rfl

private theorem length_nodes_le (hs : view.Selects graph limits)
    (hcap : 20 ≤ limits.nodeCap.toNat) :
    view.nodes.length ≤ limits.nodeCap.toNat := by
  obtain ⟨modules, packages, heq, -, hmlen, -, hplen⟩ := hs.nodes_eq_append
  rw [heq, List.length_append]
  rw [ViewLimits.perKind] at hmlen hplen
  omega

/-- Two edges of a selection with the same ends would be the same edge of the graph, which does not
outweigh itself. -/
theorem ends_nodup (h : graph.Consistent) (hs : view.Selects graph limits) :
    (view.edges.map Edge.ends).Nodup := by
  rw [List.Nodup, List.pairwise_map]
  apply hs.edges.pairwise.imp_of_mem
  intro a b ha hb hab hends
  have heq : a = b := h.edges.eq_of_key_eq (hs.mem_edges ha).1 (hs.mem_edges hb).1 hends
  rw [heq] at hab
  exact hab.asymm hab

theorem wellFormed (h : graph.Consistent) (hs : view.Selects graph limits)
    (hcap : 20 ≤ limits.nodeCap.toNat) (hweight : 1 ≤ limits.minWeight) :
    view.WellFormed limits where
  ids_nodup := hs.ids_nodup h
  modules_first := hs.modules_first
  modules_le := hs.countP_modules_le
  packages_le := hs.countP_packages_le
  nodes_le := hs.length_nodes_le hcap
  ends_mem _ hedge := (hs.mem_edges hedge).2.2
  source_ne_target edge hedge := (h.joined edge (hs.mem_edges hedge).1).1
  weight_ge edge hedge := by
    have hge := (hs.mem_edges hedge).2.1
    exact ⟨hge, UInt32.le_trans hweight hge⟩
  ends_nodup := hs.ends_nodup h
  edges_le := hs.edges.length_le
  edges_sorted := hs.edges.pairwise

end Selects

theorem nodes_restrict_sublist (view : GraphView) (filter : LanguageFilter) :
    (view.restrict filter).nodes.Sublist view.nodes := by
  cases filter with
  | all => exact List.Sublist.refl _
  | only language => exact List.filter_sublist

theorem edges_restrict_sublist (view : GraphView) (filter : LanguageFilter) :
    (view.restrict filter).edges.Sublist view.edges := by
  cases filter with
  | all => exact List.Sublist.refl _
  | only language => exact List.filter_sublist

@[simp] theorem stats_restrict (view : GraphView) (filter : LanguageFilter) :
    (view.restrict filter).stats = view.stats := by
  cases filter <;> rfl

theorem WellFormed.restrict {view : GraphView} {limits : ViewLimits} (h : view.WellFormed limits)
    (filter : LanguageFilter) : (view.restrict filter).WellFormed limits where
  ids_nodup := List.Pairwise.sublist ((view.nodes_restrict_sublist filter).map _) h.ids_nodup
  modules_first := List.Pairwise.sublist (view.nodes_restrict_sublist filter) h.modules_first
  modules_le := Nat.le_trans (view.nodes_restrict_sublist filter).countP_le h.modules_le
  packages_le := Nat.le_trans (view.nodes_restrict_sublist filter).countP_le h.packages_le
  nodes_le := Nat.le_trans (view.nodes_restrict_sublist filter).length_le h.nodes_le
  ends_mem := by
    cases filter with
    | all => exact h.ends_mem
    | only language =>
      intro edge hedge
      exact (mem_edgesBetween.mp hedge).2
  source_ne_target edge hedge :=
    h.source_ne_target edge ((view.edges_restrict_sublist filter).mem hedge)
  weight_ge edge hedge := h.weight_ge edge ((view.edges_restrict_sublist filter).mem hedge)
  ends_nodup := List.Pairwise.sublist ((view.edges_restrict_sublist filter).map _) h.ends_nodup
  edges_le := Nat.le_trans (view.edges_restrict_sublist filter).length_le h.edges_le
  edges_sorted := List.Pairwise.sublist (view.edges_restrict_sublist filter) h.edges_sorted

end RepoGraph.GraphView
