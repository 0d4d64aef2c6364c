import RepoGraph.Proofs.Graph.History
import RepoGraph.Proofs.View.Ranking
import RepoGraph.View.Json

/-!
# What a view selects

A view holds the first modules and the first packages by rank and the first of the heavy edges
between them, and so depends on which nodes and edges a graph has and not on how it came to have
them.
-/

namespace RepoGraph

/-- Two graphs hold the same nodes and the same edges, in whatever order. -/
structure Graph.SameContent (graph other : Graph) : Prop where
  nodes : ∀ node, node ∈ graph.nodes ↔ node ∈ other.nodes
  edges : ∀ edge, edge ∈ graph.edges ↔ edge ∈ other.edges

namespace Graph

variable {graph other : Graph}

private theorem nodup_of_nodup_map {α β : Type} {f : α → β} {items : List α}
    (h : (items.map f).Nodup) : items.Nodup := by
  rw [List.Nodup, List.pairwise_map] at h
  exact h.imp fun hne heq => hne (congrArg f heq)

private theorem Consistent.nodes_nodup (h : graph.Consistent) : graph.nodes.toList.Nodup :=
  nodup_of_nodup_map h.nodes.nodup_keys

private theorem Consistent.edges_nodup (h : graph.Consistent) : graph.edges.toList.Nodup :=
  nodup_of_nodup_map h.edges.nodup_keys

namespace SameContent

private theorem nodes_perm (hsame : graph.SameContent other) (h : graph.Consistent)
    (h' : other.Consistent) : graph.nodes.toList.Perm other.nodes.toList := by
  apply (List.perm_ext_iff_of_nodup h.nodes_nodup h'.nodes_nodup).mpr
  intro node
  rw [Array.mem_toList_iff, Array.mem_toList_iff]
  exact hsame.nodes node

private theorem edges_perm (hsame : graph.SameContent other) (h : graph.Consistent)
    (h' : other.Consistent) : graph.edges.toList.Perm other.edges.toList := by
  apply (List.perm_ext_iff_of_nodup h.edges_nodup h'.edges_nodup).mpr
  intro edge
  rw [Array.mem_toList_iff, Array.mem_toList_iff]
  exact hsame.edges edge

private theorem degree_eq (hsame : graph.SameContent other) (h : graph.Consistent)
    (h' : other.Consistent) (id : String) : graph.degree id = other.degree id := by
  rw [degree, degree, ← Array.countP_toList, ← Array.countP_toList]
  exact (hsame.edges_perm h h').countP_eq _

private theorem outranks_eq (hsame : graph.SameContent other) (h : graph.Consistent)
    (h' : other.Consistent) : graph.Outranks = other.Outranks := by
  funext a b
  rw [Outranks, Outranks, hsame.degree_eq h h', hsame.degree_eq h h']

private theorem stats_eq (hsame : graph.SameContent other) (h : graph.Consistent)
    (h' : other.Consistent) : graph.stats = other.stats := by
  have hn := (hsame.nodes_perm h h').length_eq
  have he := (hsame.edges_perm h h').length_eq
  have hi := (hsame.nodes_perm h h').countP_eq (·.isInternal)
  rw [Array.length_toList, Array.length_toList] at hn he
  rw [Array.countP_toList, Array.countP_toList] at hi
  rw [stats, stats, hn, he, hi]

end SameContent

end Graph

namespace GraphView

private theorem contains_idSet (nodes : List Node) (id : String) :
    (idSet nodes).contains id = true ↔ id ∈ nodes.map (·.id) := by
  rw [idSet, Std.HashSet.contains_ofList, List.contains_iff_mem]

theorem joins_idSet_iff (nodes : List Node) (edge : Edge) :
    joins (idSet nodes) edge = true ↔
      edge.source ∈ nodes.map (·.id) ∧ edge.target ∈ nodes.map (·.id) := by
  rw [joins, Bool.and_eq_true, contains_idSet, contains_idSet]

theorem mem_edgesBetween {nodes : List Node} {edges : List Edge} {edge : Edge} :
    edge ∈ edgesBetween nodes edges ↔
      edge ∈ edges ∧ edge.source ∈ nodes.map (·.id) ∧ edge.target ∈ nodes.map (·.id) := by
  rw [edgesBetween, List.mem_filter, joins_idSet_iff]

/-- A view selects from a graph within limits. -/
structure Selects (view : GraphView) (graph : Graph) (limits : ViewLimits) : Prop where
  /-- The first modules by rank, and then the first packages. -/
  nodes : ∃ modules packages,
    IsTop graph.Outranks (graph.nodes.toList.filter (·.isInternal)) limits.perKind modules ∧
    IsTop graph.Outranks (graph.nodes.toList.filter (!·.isInternal)) limits.perKind packages ∧
    view.nodes = modules ++ packages
  /-- The first edges by weight of those that are heavy enough and join selected nodes. -/
  edges : IsTop Edge.Outweighs
    (graph.edges.toList.filter fun edge =>
      limits.minWeight ≤ edge.weight ∧
        edge.source ∈ view.nodes.map (·.id) ∧ edge.target ∈ view.nodes.map (·.id))
    limits.maxEdges.toNat view.edges
  stats : view.stats = graph.stats

private theorem isTop_ranked {graph : Graph} (h : graph.Consistent) (keep : Node → Bool)
    (count : Nat) :
    IsTop graph.Outranks (graph.nodes.toList.filter keep) count
      (((graph.nodes.toList.filter keep).mergeSort
        (ranksBefore (graph.degreeTable.getD · 0))).take count) := by
  have hdegree : (graph.degreeTable.getD · 0) = graph.degree := funext h.getD_degreeTable
  rw [hdegree]
  apply isTop_mergeSort (ranksBefore_trans graph.degree) (ranksBefore_total graph.degree)
    (h.nodes_nodup.filter keep)
  intro a ha b hb hne hab
  have ha' := Array.mem_toList_iff.mp (List.mem_filter.mp ha).1
  have hb' := Array.mem_toList_iff.mp (List.mem_filter.mp hb).1
  exact outranks_of_ranksBefore (fun hid => hne (h.nodes.eq_of_key_eq ha' hb' hid)) hab

private theorem isTop_shown {graph : Graph} (h : graph.Consistent) (keep : Edge → Bool)
    (count : Nat) :
    IsTop Edge.Outweighs (graph.edges.toList.filter keep) count
      (((graph.edges.toList.filter keep).mergeSort showsBefore).take count) := by
  apply isTop_mergeSort showsBefore_trans showsBefore_total (h.edges_nodup.filter keep)
  intro a ha b hb hne hab
  have ha' := Array.mem_toList_iff.mp (List.mem_filter.mp ha).1
  have hb' := Array.mem_toList_iff.mp (List.mem_filter.mp hb).1
  exact outweighs_of_showsBefore (fun hends => hne (h.edges.eq_of_key_eq ha' hb' hends)) hab

theorem selects_ofGraph {graph : Graph} (h : graph.Consistent) (limits : ViewLimits) :
    (ofGraph graph limits).Selects graph limits where
  nodes := ⟨_, _, isTop_ranked h (·.isInternal) limits.perKind,
    isTop_ranked h (!·.isInternal) limits.perKind, rfl⟩
  edges := by
    have hkeep : edgesBetween (ofGraph graph limits).nodes
          (graph.edges.toList.filter (limits.minWeight ≤ ·.weight)) =
        graph.edges.toList.filter fun edge =>
          limits.minWeight ≤ edge.weight ∧
            edge.source ∈ (ofGraph graph limits).nodes.map (·.id) ∧
              edge.target ∈ (ofGraph graph limits).nodes.map (·.id) := by
      rw [edgesBetween, List.filter_filter]
      apply List.filter_congr
      intro edge _
      rw [Bool.eq_iff_iff, Bool.and_eq_true, joins_idSet_iff, decide_eq_true_iff,
        decide_eq_true_iff, and_comm]
    rw [← hkeep]
    have hedges : (ofGraph graph limits).edges =
        ((edgesBetween (ofGraph graph limits).nodes
          (graph.edges.toList.filter (limits.minWeight ≤ ·.weight))).mergeSort showsBefore).take
            limits.maxEdges.toNat := rfl
    rw [hedges, hkeep]
    exact isTop_shown h _ _
  stats := rfl

/-- What is selected depends on the content of the graph alone. -/
theorem Selects.eq_of_sameContent {graph other : Graph} {limits : ViewLimits}
    {view view' : GraphView} (h : graph.Consistent) (h' : other.Consistent)
    (hsame : graph.SameContent other) (hs : view.Selects graph limits)
    (hs' : view'.Selects other limits) : view = view' := by
  have hperm := hsame.nodes_perm h h'
  have hasymm : ∀ a b, other.Outranks a b → ¬ other.Outranks b a :=
    fun _ _ hab => hab.asymm
  have hnodes : view.nodes = view'.nodes := by
    obtain ⟨modules, packages, hm, hp, heq⟩ := hs.nodes
    obtain ⟨modules', packages', hm', hp', heq'⟩ := hs'.nodes
    rw [hsame.outranks_eq h h'] at hm hp
    rw [heq, heq', hm.eq_of_perm hasymm hm' (hperm.filter _),
      hp.eq_of_perm hasymm hp' (hperm.filter _)]
  have hedges : view.edges = view'.edges := by
    have he' := hs'.edges
    rw [← hnodes] at he'
    exact hs.edges.eq_of_perm (fun _ _ hab => hab.asymm) he' ((hsame.edges_perm h h').filter _)
  have hstats : view.stats = view'.stats := by
    rw [hs.stats, hs'.stats, hsame.stats_eq h h']
  cases view
  cases view'
  cases hnodes
  cases hedges
  cases hstats
  rfl

/-- The view of any graph within any limits holds exactly the first modules, the first packages and
the first heavy edges between them, with the sizes of the whole graph. Two graphs with the same
nodes and edges have the same view and fingerprint, whatever changes led to them. -/
theorem ofGraph_selects_top (changes : List Graph.Change) (limits : ViewLimits) :
    (ofGraph (.ofChanges changes) limits).Selects (.ofChanges changes) limits ∧
    ∀ others : List Graph.Change, (Graph.ofChanges changes).SameContent (.ofChanges others) →
      ofGraph (.ofChanges changes) limits = ofGraph (.ofChanges others) limits ∧
      (ofGraph (.ofChanges changes) limits).fingerprint =
        (ofGraph (.ofChanges others) limits).fingerprint := by
  have h := Graph.consistent_ofChanges changes
  refine ⟨selects_ofGraph h limits, ?_⟩
  intro others hsame
  have h' := Graph.consistent_ofChanges others
  have heq := Selects.eq_of_sameContent h h' hsame (selects_ofGraph h limits)
    (selects_ofGraph h' limits)
  exact ⟨heq, congrArg fingerprint heq⟩

/-- A file, a package and two references between them. -/
def fileFirst : List Graph.Change :=
  [.upsert (.internal "a.js" none), .upsert (.external "npm:react" "react" {}),
    .reference "a.js" "npm:react", .reference "a.js" "npm:react"]

def packageFirst : List Graph.Change :=
  [.upsert (.external "npm:react" "react" {}), .upsert (.internal "a.js" none),
    .reference "a.js" "npm:react", .reference "a.js" "npm:react"]

private theorem sameContent_packageFirst :
    (Graph.ofChanges fileFirst).SameContent (.ofChanges packageFirst) where
  nodes node := by
    simp [fileFirst, packageFirst, Graph.ofChanges, Graph.apply, Graph.upsert,
      Graph.addReference, Graph.contains, Node.internal, Node.external, or_comm]
  edges edge := by
    simp [fileFirst, packageFirst, Graph.ofChanges, Graph.apply, Graph.upsert,
      Graph.addReference, Graph.contains, Node.internal, Node.external]

theorem ofGraph_selects_top_packageFirst :
    (Graph.ofChanges fileFirst).SameContent (.ofChanges packageFirst) ∧
      ofGraph (.ofChanges fileFirst) {} = ofGraph (.ofChanges packageFirst) {} :=
  ⟨sameContent_packageFirst,
    ((ofGraph_selects_top fileFirst {}).2 packageFirst sameContent_packageFirst).1⟩

end GraphView

end RepoGraph
