import RepoGraph.Proofs.View.NodeCap

/-!
# Tightening the bounds on edges

Edges are shown heaviest first, so both bounds on them cut at the end of one list: asking for a
larger weight, or for fewer edges, takes the last edges away and leaves the others where they are.
-/

namespace RepoGraph

namespace IsTop

variable {α : Type} {before : α → α → Prop} {items top top' : List α} {count count' : Nat}

private theorem filter_isPrefix {keep : α → Bool}
    (mono : ∀ a b, before a b → keep b = true → keep a = true) {ranking : List α}
    (hsorted : ranking.Pairwise before) : ranking.filter keep <+: ranking := by
  induction hsorted with
  | nil => exact List.prefix_rfl
  | @cons a ranking hfirst _ ih =>
    cases ha : keep a with
    | true =>
      rw [List.filter_cons_of_pos ha]
      exact (List.prefix_cons_inj a).mpr ih
    | false =>
      have hnone : (a :: ranking).filter keep = [] := by
        rw [List.filter_cons_of_neg (by simp [ha]), List.filter_eq_nil_iff]
        intro b hb hkeep
        rw [mono a b (hfirst b hb) hkeep] at ha
        cases ha
      rw [hnone]
      exact List.nil_prefix

/-- Cutting an ordered list and then leaving out elements at its end can be done the other way
round, whether or not the cut goes further than what is left out. -/
theorem filter_take {keep : α → Bool} (mono : ∀ a b, before a b → keep b = true → keep a = true)
    {ranking : List α} (hsorted : ranking.Pairwise before) (count : Nat) :
    (ranking.take count).filter keep = (ranking.filter keep).take count := by
  obtain ⟨light, hlight⟩ := filter_isPrefix mono hsorted
  have hkept : ∀ a ∈ ranking.filter keep, keep a = true := fun a ha => (List.mem_filter.mp ha).2
  have hleft : light.filter keep = [] := by
    have htwice := congrArg (List.filter keep) hlight
    rw [List.filter_append, List.filter_eq_self.mpr hkept] at htwice
    exact List.append_right_eq_self.mp htwice
  conv_lhs => rw [← hlight]
  rw [List.take_append, List.filter_append,
    List.filter_eq_self.mpr fun a ha => hkept a (List.mem_of_mem_take ha),
    List.filter_eq_nil_iff.mpr fun a ha =>
      List.filter_eq_nil_iff.mp hleft a (List.mem_of_mem_take ha),
    List.append_nil]

private theorem eq_filter_of_mono (asymm : ∀ a b, before a b → ¬ before b a) {keep : α → Bool}
    (mono : ∀ a b, before a b → keep b = true → keep a = true) (h : IsTop before items count top)
    (h' : IsTop before (items.filter keep) count top') : top' = top.filter keep := by
  obtain ⟨ranking, hperm, hsorted, rfl⟩ := h
  rw [filter_take mono hsorted]
  exact h'.eq_of_perm asymm ⟨_, hperm.filter keep, hsorted.filter keep, rfl⟩
    (List.Perm.refl _)

end IsTop

namespace GraphView

private theorem le_weight_of_outweighs {minWeight : UInt32} (a b : Edge) (h : a.Outweighs b)
    (hb : decide (minWeight ≤ b.weight) = true) : decide (minWeight ≤ a.weight) = true := by
  rw [decide_eq_true_iff] at *
  rcases h with hlt | ⟨heq, -⟩
  · exact UInt32.le_trans hb (UInt32.le_of_lt hlt)
  · rw [heq]
    exact hb

private theorem filter_heavier {low high : UInt32} (hle : low ≤ high) (nodes : List Node)
    (edges : List Edge) :
    (edges.filter fun edge => high ≤ edge.weight ∧
        edge.source ∈ nodes.map (·.id) ∧ edge.target ∈ nodes.map (·.id)) =
      (edges.filter fun edge => low ≤ edge.weight ∧
        edge.source ∈ nodes.map (·.id) ∧ edge.target ∈ nodes.map (·.id)).filter fun edge =>
          high ≤ edge.weight := by
  rw [List.filter_filter]
  apply List.filter_congr
  intro edge _
  rw [Bool.eq_iff_iff, Bool.and_eq_true, decide_eq_true_iff, decide_eq_true_iff,
    decide_eq_true_iff]
  constructor
  · rintro ⟨hweight, hends⟩
    exact ⟨hweight, UInt32.le_trans hle hweight, hends⟩
  · rintro ⟨hweight, -, hends⟩
    exact ⟨hweight, hends⟩

/-- Asking for a larger weight keeps the first edges of a view, those that are heavy enough; asking
for fewer edges keeps the first ones. Nodes and sizes stay as they are. -/
theorem ofGraph_edges_tail (changes : List Graph.Change) (nodeCap : UInt64) :
    let graph := Graph.ofChanges changes
    (∀ (low high : UInt32) (maxEdges : UInt64), low ≤ high →
      let view := ofGraph graph ⟨nodeCap, low, maxEdges⟩
      let heavy := ofGraph graph ⟨nodeCap, high, maxEdges⟩
      heavy.edges <+: view.edges ∧ heavy.edges = view.edges.filter (high ≤ ·.weight) ∧
        heavy.nodes = view.nodes ∧ heavy.stats = view.stats) ∧
    (∀ (minWeight : UInt32) (few many : UInt64), few ≤ many →
      let view := ofGraph graph ⟨nodeCap, minWeight, many⟩
      let short := ofGraph graph ⟨nodeCap, minWeight, few⟩
      short.edges = view.edges.take few.toNat ∧
        short.nodes = view.nodes ∧ short.stats = view.stats) := by
  intro graph
  have h : graph.Consistent := Graph.consistent_ofChanges changes
  have hasymm : ∀ a b : Edge, a.Outweighs b → ¬ b.Outweighs a := fun _ _ hab => hab.asymm
  constructor
  · intro low high maxEdges hle view heavy
    have hview : view.Selects graph ⟨nodeCap, low, maxEdges⟩ := selects_ofGraph h _
    have hheavy : heavy.Selects graph ⟨nodeCap, high, maxEdges⟩ := selects_ofGraph h _
    have hnodes : heavy.nodes = view.nodes := rfl
    have hedges := hheavy.edges
    rw [hnodes, filter_heavier hle] at hedges
    have hfilter : heavy.edges = view.edges.filter (high ≤ ·.weight) :=
      hview.edges.eq_filter_of_mono hasymm le_weight_of_outweighs hedges
    refine ⟨?_, hfilter, hnodes, rfl⟩
    rw [hfilter]
    exact IsTop.filter_isPrefix le_weight_of_outweighs hview.edges.pairwise
  · intro minWeight few many hle view short
    have hview : view.Selects graph ⟨nodeCap, minWeight, many⟩ := selects_ofGraph h _
    have hshort : short.Selects graph ⟨nodeCap, minWeight, few⟩ := selects_ofGraph h _
    have hnodes : short.nodes = view.nodes := rfl
    have hedges := hshort.edges
    rw [hnodes] at hedges
    exact ⟨hedges.eq_take hasymm hview.edges (UInt64.le_iff_toNat_le.mp hle), hnodes, rfl⟩

/-- The hub with two references to one of its files. -/
def doubledHub : List Graph.Change := hub ++ [.reference "hub.py" "7"]

theorem ofGraph_edges_tail_doubledHub :
    ((1 : UInt32) ≤ 2 ∧
      (ofGraph (.ofChanges doubledHub) ⟨24, 2, 5⟩).edges <+:
        (ofGraph (.ofChanges doubledHub) ⟨24, 1, 5⟩).edges) ∧
    ((3 : UInt64) ≤ 5 ∧
      (ofGraph (.ofChanges doubledHub) ⟨24, 1, 3⟩).edges =
        (ofGraph (.ofChanges doubledHub) ⟨24, 1, 5⟩).edges.take 3) := by
  have hweight : (1 : UInt32) ≤ 2 := by decide
  have hcount : (3 : UInt64) ≤ 5 := by decide
  exact ⟨⟨hweight, ((ofGraph_edges_tail doubledHub 24).1 1 2 5 hweight).1⟩, hcount,
    ((ofGraph_edges_tail doubledHub 24).2 1 3 5 hcount).1⟩

end GraphView

end RepoGraph
