import RepoGraph.Proofs.Graph.Positions

/-!
# Consistent graphs

The two tables of a graph agree with its arrays, and every edge joins two different nodes. An empty
graph is consistent and every change keeps that. Each change is described once, by what it does to
the nodes and edges that the graph names for an id or a pair of ids.
-/

namespace RepoGraph

def Edge.ends (edge : Edge) : String × String := (edge.source, edge.target)

theorem Edge.eq_of_ends {a b : Edge} (hends : a.ends = b.ends) (hweight : a.weight = b.weight) :
    a = b := by
  obtain ⟨hsource, htarget⟩ := Prod.mk.inj hends
  cases a
  cases b
  cases hsource
  cases htarget
  cases hweight
  rfl

namespace Graph

/-- The tables of a graph hold the positions of its nodes and edges, and its edges join two
different nodes. -/
structure Consistent (graph : Graph) : Prop where
  nodes : Locates graph.nodeAt Node.id graph.nodes
  edges : Locates graph.edgeAt Edge.ends graph.edges
  joined : ∀ edge ∈ graph.edges,
    edge.source ≠ edge.target ∧ graph.contains edge.source ∧ graph.contains edge.target

private theorem node?_eq_itemAt? (graph : Graph) (id : String) :
    graph.node? id = itemAt? graph.nodeAt graph.nodes id := rfl

private theorem edge?_eq_itemAt? (graph : Graph) (source target : String) :
    graph.edge? source target = itemAt? graph.edgeAt graph.edges (source, target) := rfl

namespace Consistent

variable {graph : Graph}

theorem node?_eq_some_iff (h : graph.Consistent) {id : String} {node : Node} :
    graph.node? id = some node ↔ node ∈ graph.nodes ∧ node.id = id := by
  rw [node?_eq_itemAt?]
  exact h.nodes.itemAt?_eq_some_iff

theorem edge?_eq_some_iff (h : graph.Consistent) {source target : String} {edge : Edge} :
    graph.edge? source target = some edge ↔
      edge ∈ graph.edges ∧ edge.source = source ∧ edge.target = target := by
  rw [edge?_eq_itemAt?, h.edges.itemAt?_eq_some_iff, Edge.ends, Prod.mk.injEq]

theorem contains_iff (h : graph.Consistent) {id : String} :
    graph.contains id = true ↔ ∃ node ∈ graph.nodes, node.id = id :=
  h.nodes.contains_iff

theorem contains_iff_mem_ids (h : graph.Consistent) {id : String} :
    graph.contains id = true ↔ id ∈ graph.nodes.toList.map (·.id) := by
  rw [h.contains_iff, List.mem_map]
  simp only [Array.mem_toList_iff]

theorem contains_of_mem (h : graph.Consistent) {node : Node} (hn : node ∈ graph.nodes) :
    graph.contains node.id = true :=
  h.contains_iff.mpr ⟨node, hn, rfl⟩

end Consistent

@[simp] theorem edges_upsert (graph : Graph) (node : Node) :
    (graph.upsert node).1.edges = graph.edges := by
  unfold upsert
  split <;> rfl

@[simp] theorem edgeAt_upsert (graph : Graph) (node : Node) :
    (graph.upsert node).1.edgeAt = graph.edgeAt := by
  unfold upsert
  split <;> rfl

@[simp] theorem edge?_upsert (graph : Graph) (node : Node) (source target : String) :
    (graph.upsert node).1.edge? source target = graph.edge? source target := by
  rw [edge?, edges_upsert, edgeAt_upsert, edge?]

theorem contains_upsert (graph : Graph) (node : Node) (id : String) :
    (graph.upsert node).1.contains id = (node.id == id || graph.contains id) := by
  unfold upsert
  split
  · rename_i i hi
    by_cases hid : node.id = id
    · subst hid
      simp [contains, Std.HashMap.contains_eq_isSome_getElem?, hi]
    · simp [contains, hid]
  · simp [contains, Std.HashMap.contains_insert]

/-- The node of an id that a new node goes to: with its own details if there was none. -/
def absorb (node : Node) : Option Node → Node
  | some known => { known with details := known.details.merge node.details }
  | none => node

theorem node?_upsert {graph : Graph} (h : graph.Consistent) (node : Node) (id : String) :
    (graph.upsert node).1.node? id =
      if node.id = id then some (absorb node (graph.node? node.id)) else graph.node? id := by
  rw [node?_eq_itemAt?, node?_eq_itemAt?, node?_eq_itemAt?]
  unfold upsert
  split
  · rename_i i hi
    obtain ⟨known, hknown, _⟩ := h.nodes.item_of_position hi
    have hself : itemAt? graph.nodeAt graph.nodes node.id = some known := by
      rw [itemAt?, hi]
      exact hknown
    rw [h.nodes.itemAt?_modify hi]
    by_cases hid : node.id = id
    · subst hid
      simp [hself, absorb]
    · simp [hid]
  · rename_i hnone
    have hself : itemAt? graph.nodeAt graph.nodes node.id = none := by
      rw [itemAt?, hnone]
      rfl
    rw [h.nodes.itemAt?_push, hself]
    simp only [beq_iff_eq, absorb]

theorem nodeAt_upsert_self (graph : Graph) (node : Node) :
    (graph.upsert node).1.nodeAt[node.id]? = some (graph.upsert node).2 := by
  unfold upsert
  split
  · assumption
  · exact Std.HashMap.getElem?_insert_self

theorem nodeAt_upsert_of_some {graph : Graph} {id : String} {i : Nat}
    (h : graph.nodeAt[id]? = some i) (node : Node) :
    (graph.upsert node).1.nodeAt[id]? = some i := by
  unfold upsert
  split
  · exact h
  · rename_i hnone
    have hid : node.id ≠ id := by
      intro heq
      rw [heq, h] at hnone
      contradiction
    simpa [Std.HashMap.getElem?_insert, hid] using h

theorem Consistent.upsert {graph : Graph} (h : graph.Consistent) (node : Node) :
    (graph.upsert node).1.Consistent where
  nodes := by
    unfold Graph.upsert
    split
    · exact h.nodes.modify _ _ fun _ => rfl
    · exact h.nodes.push node (by assumption)
  edges := by
    rw [edges_upsert, edgeAt_upsert]
    exact h.edges
  joined := by
    intro edge he
    rw [edges_upsert] at he
    obtain ⟨hne, hs, ht⟩ := h.joined edge he
    rw [contains_upsert, contains_upsert, hs, ht]
    exact ⟨hne, Bool.or_true _, Bool.or_true _⟩

def Accepts (graph : Graph) (source target : String) : Prop :=
  source ≠ target ∧ graph.contains source ∧ graph.contains target

instance (graph : Graph) (source target : String) : Decidable (graph.Accepts source target) :=
  inferInstanceAs (Decidable (_ ∧ _))

theorem addReference_of_not_accepts {graph : Graph} {source target : String}
    (h : ¬ graph.Accepts source target) : graph.addReference source target = (graph, none) := by
  unfold addReference
  rw [if_pos]
  simp only [Accepts, ne_eq, not_and, Bool.not_eq_true] at h
  by_cases hst : source = target
  · exact Or.inl hst
  · cases hs : graph.contains source with
    | false => exact Or.inr (Or.inl rfl)
    | true => exact Or.inr (Or.inr (by rw [h hst hs]; rfl))

theorem addReference_of_accepts {graph : Graph} {source target : String}
    (h : graph.Accepts source target) :
    graph.addReference source target =
      match graph.edgeAt[(source, target)]? with
      | some i =>
        ({ graph with edges := graph.edges.modify i fun edge =>
            { edge with weight := edge.weight + 1 } }, some i)
      | none =>
        ({ graph with
            edges := graph.edges.push ⟨source, target, 1⟩
            edgeAt := graph.edgeAt.insert (source, target) graph.edges.size },
          some graph.edges.size) := by
  obtain ⟨hne, hs, ht⟩ := h
  unfold addReference
  exact if_neg (by simp [hne, hs, ht])

@[simp] theorem nodes_addReference (graph : Graph) (source target : String) :
    (graph.addReference source target).1.nodes = graph.nodes := by
  unfold addReference
  split
  · rfl
  · split <;> rfl

@[simp] theorem nodeAt_addReference (graph : Graph) (source target : String) :
    (graph.addReference source target).1.nodeAt = graph.nodeAt := by
  unfold addReference
  split
  · rfl
  · split <;> rfl

@[simp] theorem node?_addReference (graph : Graph) (source target id : String) :
    (graph.addReference source target).1.node? id = graph.node? id := by
  rw [node?, nodeAt_addReference, nodes_addReference, node?]

@[simp] theorem contains_addReference (graph : Graph) (source target id : String) :
    (graph.addReference source target).1.contains id = graph.contains id := by
  rw [contains, nodeAt_addReference, contains]

def heavier (source target : String) : Option Edge → Edge
  | some edge => { edge with weight := edge.weight + 1 }
  | none => ⟨source, target, 1⟩

theorem edge?_addReference {graph : Graph} (h : graph.Consistent) {source target : String}
    (ha : graph.Accepts source target) (a b : String) :
    (graph.addReference source target).1.edge? a b =
      if source = a ∧ target = b then some (heavier source target (graph.edge? source target))
      else graph.edge? a b := by
  rw [addReference_of_accepts ha, edge?_eq_itemAt?, edge?_eq_itemAt?, edge?_eq_itemAt?]
  split
  · rename_i i hi
    obtain ⟨edge, hedge, _⟩ := h.edges.item_of_position hi
    have hself : itemAt? graph.edgeAt graph.edges (source, target) = some edge := by
      rw [itemAt?, hi]
      exact hedge
    rw [h.edges.itemAt?_modify hi]
    by_cases hab : source = a ∧ target = b
    · obtain ⟨rfl, rfl⟩ := hab
      simp [hself, heavier]
    · rw [if_neg (by simpa using hab), if_neg hab]
  · rename_i hnone
    have hself : itemAt? graph.edgeAt graph.edges (source, target) = none := by
      rw [itemAt?, hnone]
      rfl
    rw [show (source, target) = Edge.ends ⟨source, target, 1⟩ from rfl, h.edges.itemAt?_push,
      show Edge.ends ⟨source, target, 1⟩ = (source, target) from rfl, hself]
    simp only [heavier, beq_iff_eq, Prod.mk.injEq]

theorem addReference_isSome_iff (graph : Graph) (source target : String) :
    (graph.addReference source target).2.isSome ↔ graph.Accepts source target := by
  by_cases h : graph.Accepts source target
  · rw [addReference_of_accepts h]
    split <;> simp [h]
  · rw [addReference_of_not_accepts h]
    simp [h]

theorem edgeAt_addReference_self {graph : Graph} {source target : String} {i : Nat}
    (h : (graph.addReference source target).2 = some i) :
    (graph.addReference source target).1.edgeAt[(source, target)]? = some i := by
  have ha : graph.Accepts source target := by
    rw [← addReference_isSome_iff, h]
    rfl
  rw [addReference_of_accepts ha] at h ⊢
  split at h
  · rename_i j hj
    cases h
    simpa using hj
  · cases h
    simp

theorem edgeAt_addReference_of_some {graph : Graph} {pair : String × String} {i : Nat}
    (h : graph.edgeAt[pair]? = some i) (source target : String) :
    (graph.addReference source target).1.edgeAt[pair]? = some i := by
  by_cases ha : graph.Accepts source target
  · rw [addReference_of_accepts ha]
    split
    · exact h
    · rename_i hnone
      have hne : (source, target) ≠ pair := by
        intro heq
        rw [heq, h] at hnone
        contradiction
      rw [Std.HashMap.getElem?_insert, if_neg (by simpa using hne)]
      exact h
  · rw [addReference_of_not_accepts ha]
    exact h

theorem Consistent.addReference {graph : Graph} (h : graph.Consistent) (source target : String) :
    (graph.addReference source target).1.Consistent := by
  by_cases ha : graph.Accepts source target
  · refine ⟨?_, ?_, ?_⟩
    · rw [nodes_addReference, nodeAt_addReference]
      exact h.nodes
    · rw [addReference_of_accepts ha]
      split
      · exact h.edges.modify _ _ fun _ => rfl
      · exact h.edges.push ⟨source, target, 1⟩ (by assumption)
    · intro edge he
      rw [contains_addReference, contains_addReference]
      rw [addReference_of_accepts ha] at he
      split at he
      · -- A counted edge keeps its ends, so it is joined as it was.
        obtain ⟨j, hj⟩ := Array.getElem?_of_mem he
        rw [Array.getElem?_modify] at hj
        split at hj
        · obtain ⟨old, hold, rfl⟩ := Option.map_eq_some_iff.mp hj
          exact h.joined old (Array.mem_of_getElem? hold)
        · exact h.joined edge (Array.mem_of_getElem? hj)
      · rcases Array.mem_push.mp he with he | rfl
        · exact h.joined edge he
        · exact ha
  · rw [addReference_of_not_accepts ha]
    exact h

theorem consistent_empty : ({} : Graph).Consistent where
  nodes := Locates.empty
  edges := Locates.empty
  joined := by
    intro edge he
    simp at he

theorem Consistent.apply {graph : Graph} (h : graph.Consistent) (change : Change) :
    (graph.apply change).Consistent := by
  cases change with
  | upsert node => exact h.upsert node
  | reference source target => exact h.addReference source target

theorem foldl_apply_induction {P : Graph → Prop}
    (step : ∀ graph change, graph.Consistent → P graph → P (graph.apply change))
    (changes : List Change) {graph : Graph} (h : graph.Consistent) (hP : P graph) :
    (changes.foldl apply graph).Consistent ∧ P (changes.foldl apply graph) := by
  induction changes generalizing graph with
  | nil => exact ⟨h, hP⟩
  | cons change changes ih => exact ih (h.apply change) (step graph change h hP)

theorem consistent_ofChanges (changes : List Change) : (ofChanges changes).Consistent :=
  (foldl_apply_induction (P := fun _ => True) (fun _ _ _ h => h) changes consistent_empty
    trivial).1

theorem ofChanges_append (before after : List Change) :
    ofChanges (before ++ after) = after.foldl apply (ofChanges before) :=
  List.foldl_append

theorem ofChanges_concat (changes : List Change) (change : Change) :
    ofChanges (changes ++ [change]) = (ofChanges changes).apply change :=
  ofChanges_append changes [change]

end Graph

end RepoGraph
