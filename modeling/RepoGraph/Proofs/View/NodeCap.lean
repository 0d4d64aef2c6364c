import RepoGraph.Proofs.View.Selection

/-!
# Raising the node cap

A larger cap shows every node that a smaller one shows, at the same place among its kind. As long as
the bound on edges cuts nothing off, the smaller view is what the larger one says of its nodes.
-/

namespace RepoGraph

namespace IsTop

variable {α : Type} {before : α → α → Prop} {items top top' : List α} {count count' : Nat}

theorem eq_take (asymm : ∀ a b, before a b → ¬ before b a) (h : IsTop before items count top)
    (h' : IsTop before items count' top') (hle : count ≤ count') : top = top'.take count := by
  obtain ⟨ranking, hperm, hsorted, rfl⟩ := h'
  rw [List.take_take, Nat.min_eq_left hle]
  exact h.eq_of_perm asymm ⟨ranking, hperm, hsorted, rfl⟩ (List.Perm.refl items)

private theorem isPrefix_of_le (asymm : ∀ a b, before a b → ¬ before b a)
    (h : IsTop before items count top) (h' : IsTop before items count' top')
    (hle : count ≤ count') : top <+: top' := by
  rw [h.eq_take asymm h' hle]
  exact List.take_prefix count top'

private theorem perm_of_length_le (h : IsTop before items count top) (hle : items.length ≤ count) :
    top.Perm items := by
  obtain ⟨ranking, hperm, -, rfl⟩ := h
  have hlen : ranking.length ≤ count := hperm.length_eq ▸ hle
  rw [List.take_of_length_le hlen]
  exact hperm

/-- Where nothing is cut off, the order of some elements is that of all of them. -/
theorem eq_filter (asymm : ∀ a b, before a b → ¬ before b a) {keep : α → Bool}
    (h : IsTop before items count top) (h' : IsTop before (items.filter keep) count top')
    (hle : items.length ≤ count) : top' = top.filter keep := by
  have hle' : (items.filter keep).length ≤ count :=
    Nat.le_trans (List.length_filter_le keep items) hle
  have hperm := (h.perm_of_length_le hle).filter keep
  apply ((h'.perm_of_length_le hle').trans hperm.symm).eq_of_pairwise ?_ h'.pairwise
    (h.pairwise.filter keep)
  intro a b _ _ hab hba
  exact absurd hba (asymm a b hab)

end IsTop

private theorem Graph.size_edges_ofChanges_le (changes : List Change) :
    (ofChanges changes).edges.size ≤ changes.length := by
  induction changes using List.reverseRecOn with
  | nil => exact Nat.zero_le _
  | append_singleton changes change ih =>
    rw [ofChanges_concat, List.length_append, List.length_singleton]
    cases change with
    | upsert node =>
      rw [apply, edges_upsert]
      omega
    | reference source target =>
      have hone : ((ofChanges changes).addReference source target).1.edges.size ≤
          (ofChanges changes).edges.size + 1 := by
        unfold addReference
        split
        · exact Nat.le_succ _
        · split <;> simp
      exact Nat.le_trans hone (Nat.succ_le_succ ih)

namespace GraphView

namespace Selects

variable {view : GraphView} {graph : Graph} {limits : ViewLimits}

private theorem isTop_kinds (hs : view.Selects graph limits) :
    IsTop graph.Outranks (graph.nodes.toList.filter (·.isInternal)) limits.perKind
        (view.nodes.filter (·.isInternal)) ∧
      IsTop graph.Outranks (graph.nodes.toList.filter (!·.isInternal)) limits.perKind
        (view.nodes.filter (!·.isInternal)) := by
  obtain ⟨modules, packages, hm, hp, heq⟩ := hs.nodes
  have hmodules : ∀ node ∈ modules, node.isInternal = true := by
    intro node hnode
    exact (List.mem_filter.mp (hm.mem hnode)).2
  have hpackages : ∀ node ∈ packages, (!node.isInternal) = true := by
    intro node hnode
    exact (List.mem_filter.mp (hp.mem hnode)).2
  have hno : packages.filter (·.isInternal) = [] := by
    apply List.filter_eq_nil_iff.mpr
    intro node hnode
    simpa using hpackages node hnode
  have hno' : modules.filter (!·.isInternal) = [] := by
    apply List.filter_eq_nil_iff.mpr
    intro node hnode
    simpa using hmodules node hnode
  rw [heq, List.filter_append, List.filter_append, List.filter_eq_self.mpr hmodules,
    List.filter_eq_self.mpr hpackages, hno, hno', List.append_nil, List.nil_append]
  exact ⟨hm, hp⟩

/-- The nodes of each kind are a prefix of those that a view with a larger share shows. -/
theorem isPrefix_of_perKind_le {large : GraphView} {limits' : ViewLimits}
    (hs : view.Selects graph limits) (hs' : large.Selects graph limits')
    (hle : limits.perKind ≤ limits'.perKind) :
    view.nodes.filter (·.isInternal) <+: large.nodes.filter (·.isInternal) ∧
      view.nodes.filter (!·.isInternal) <+: large.nodes.filter (!·.isInternal) := by
  have hasymm : ∀ a b, graph.Outranks a b → ¬ graph.Outranks b a := fun _ _ hab => hab.asymm
  obtain ⟨hm, hp⟩ := hs.isTop_kinds
  obtain ⟨hm', hp'⟩ := hs'.isTop_kinds
  exact ⟨hm.isPrefix_of_le hasymm hm' hle, hp.isPrefix_of_le hasymm hp' hle⟩

end Selects

private theorem subset_of_isPrefix {nodes nodes' : List Node}
    (hmodules : nodes.filter (·.isInternal) <+: nodes'.filter (·.isInternal))
    (hpackages : nodes.filter (!·.isInternal) <+: nodes'.filter (!·.isInternal)) :
    nodes ⊆ nodes' := by
  intro node hnode
  cases hkind : node.isInternal with
  | true =>
    have hmem : node ∈ nodes.filter (·.isInternal) := List.mem_filter.mpr ⟨hnode, hkind⟩
    exact (List.mem_filter.mp (hmodules.subset hmem)).1
  | false =>
    have hmem : node ∈ nodes.filter (!·.isInternal) :=
      List.mem_filter.mpr ⟨hnode, by rw [hkind]; rfl⟩
    exact (List.mem_filter.mp (hpackages.subset hmem)).1

private theorem filter_joining {nodes nodes' : List Node} (hsub : nodes ⊆ nodes')
    (minWeight : UInt32) (edges : List Edge) :
    (edges.filter fun edge => minWeight ≤ edge.weight ∧
        edge.source ∈ nodes.map (·.id) ∧ edge.target ∈ nodes.map (·.id)) =
      (edges.filter fun edge => minWeight ≤ edge.weight ∧
        edge.source ∈ nodes'.map (·.id) ∧ edge.target ∈ nodes'.map (·.id)).filter fun edge =>
          edge.source ∈ nodes.map (·.id) ∧ edge.target ∈ nodes.map (·.id) := by
  have hids := List.map_subset (·.id) hsub
  rw [List.filter_filter]
  apply List.filter_congr
  intro edge _
  rw [Bool.eq_iff_iff, Bool.and_eq_true, decide_eq_true_iff, decide_eq_true_iff,
    decide_eq_true_iff]
  constructor
  · rintro ⟨hweight, hsource, htarget⟩
    exact ⟨⟨hsource, htarget⟩, hweight, hids hsource, hids htarget⟩
  · rintro ⟨hends, hweight, -⟩
    exact ⟨hweight, hends⟩

private theorem perKind_le_of_nodeCap_le {low high : UInt64} (hle : low ≤ high) (minWeight : UInt32)
    (maxEdges : UInt64) :
    ViewLimits.perKind ⟨low, minWeight, maxEdges⟩ ≤
      ViewLimits.perKind ⟨high, minWeight, maxEdges⟩ := by
  have hnat : low.toNat ≤ high.toNat := UInt64.le_iff_toNat_le.mp hle
  rw [ViewLimits.perKind, ViewLimits.perKind]
  dsimp only
  omega

/-- Raising the node cap keeps the modules and the packages that were shown as the first ones of
their kind, so none is lost. Where the bound on edges does not cut the larger view, the edges of the
smaller one are those of the larger one between its own nodes, in the same order. -/
theorem ofGraph_mono_nodeCap (changes : List Graph.Change) (minWeight : UInt32) (maxEdges : UInt64)
    {low high : UInt64} (hle : low ≤ high) :
    let graph := Graph.ofChanges changes
    let small := ofGraph graph ⟨low, minWeight, maxEdges⟩
    let large := ofGraph graph ⟨high, minWeight, maxEdges⟩
    small.nodes.filter (·.isInternal) <+: large.nodes.filter (·.isInternal) ∧
    small.nodes.filter (!·.isInternal) <+: large.nodes.filter (!·.isInternal) ∧
    small.nodes ⊆ large.nodes ∧
    ((graph.edges.toList.filter fun edge => minWeight ≤ edge.weight ∧
        edge.source ∈ large.nodes.map (·.id) ∧
        edge.target ∈ large.nodes.map (·.id)).length ≤ maxEdges.toNat →
      small.edges = large.edges.filter fun edge =>
        edge.source ∈ small.nodes.map (·.id) ∧ edge.target ∈ small.nodes.map (·.id)) ∧
    small.stats = large.stats := by
  intro graph small large
  have h := Graph.consistent_ofChanges changes
  have hs : small.Selects graph ⟨low, minWeight, maxEdges⟩ := selects_ofGraph h _
  have hs' : large.Selects graph ⟨high, minWeight, maxEdges⟩ := selects_ofGraph h _
  obtain ⟨hmodules, hpackages⟩ :=
    hs.isPrefix_of_perKind_le hs' (perKind_le_of_nodeCap_le hle minWeight maxEdges)
  have hsub := subset_of_isPrefix hmodules hpackages
  refine ⟨hmodules, hpackages, hsub, ?_, hs.stats.trans hs'.stats.symm⟩
  intro hfew
  have hedges := hs.edges
  rw [filter_joining hsub] at hedges
  exact hs'.edges.eq_filter (fun _ _ hab => hab.asymm) hedges hfew

def hub : List Graph.Change :=
  .upsert (.internal "hub.py" none) :: (List.range 12).flatMap fun i =>
    [.upsert (.internal (toString i) none), .reference "hub.py" (toString i)]

theorem ofGraph_mono_nodeCap_hub :
    (20 : UInt64) ≤ 24 ∧
      ((Graph.ofChanges hub).edges.toList.filter fun edge => (1 : UInt32) ≤ edge.weight ∧
        edge.source ∈ (ofGraph (.ofChanges hub) ⟨24, 1, 400⟩).nodes.map (·.id) ∧
        edge.target ∈ (ofGraph (.ofChanges hub) ⟨24, 1, 400⟩).nodes.map (·.id)).length ≤
          (400 : UInt64).toNat ∧
      (ofGraph (.ofChanges hub) ⟨20, 1, 400⟩).edges =
        (ofGraph (.ofChanges hub) ⟨24, 1, 400⟩).edges.filter fun edge =>
          edge.source ∈ (ofGraph (.ofChanges hub) ⟨20, 1, 400⟩).nodes.map (·.id) ∧
          edge.target ∈ (ofGraph (.ofChanges hub) ⟨20, 1, 400⟩).nodes.map (·.id) := by
  have hle : (20 : UInt64) ≤ 24 := by decide
  have hsize : (Graph.ofChanges hub).edges.toList.length ≤ (400 : UInt64).toNat := by
    have hlen : hub.length ≤ (400 : UInt64).toNat := by decide
    exact Nat.le_trans (Graph.size_edges_ofChanges_le hub) hlen
  have hfew := fun keep => Nat.le_trans
    (List.length_filter_le keep (Graph.ofChanges hub).edges.toList) hsize
  exact ⟨hle, hfew _, (ofGraph_mono_nodeCap hub 1 400 hle).2.2.2.1 (hfew _)⟩

end GraphView

end RepoGraph
