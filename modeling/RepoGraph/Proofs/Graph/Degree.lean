import Mathlib.Algebra.GroupWithZero.Nat
import RepoGraph.Proofs.Graph.Consistency

/-!
# Degrees

The table of degrees is filled edge by edge. In a consistent graph it has exactly the nodes as keys,
holds the number of edges at each, and its entries add up to twice the number of edges.
-/

namespace RepoGraph

private theorem Edge.touches_iff (edge : Edge) (id : String) :
    edge.touches id = true ↔ edge.source = id ∨ edge.target = id := by
  rw [touches, Bool.or_eq_true, beq_iff_eq, beq_iff_eq]

namespace Graph

private theorem getD_countEnds (table : Std.HashMap String Nat) (edge : Edge)
    (hne : edge.source ≠ edge.target) (id : String) :
    (countEnds table edge).getD id 0 = table.getD id 0 + if edge.touches id then 1 else 0 := by
  have hbeq : (edge.source == edge.target) = false := by simpa using hne
  by_cases ht : edge.target = id
  · subst ht
    simp [countEnds, Edge.touches, Std.HashMap.getD_insert, hbeq]
  · by_cases hs : edge.source = id
    · subst hs
      simp [countEnds, Edge.touches, Std.HashMap.getD_insert, ht]
    · simp [countEnds, Edge.touches, Std.HashMap.getD_insert, hs, ht]

private theorem mem_countEnds (table : Std.HashMap String Nat) (edge : Edge) (id : String) :
    id ∈ countEnds table edge ↔ edge.touches id ∨ id ∈ table := by
  rw [countEnds, Std.HashMap.mem_insert, Std.HashMap.mem_insert, Edge.touches_iff, beq_iff_eq,
    beq_iff_eq, ← or_assoc, or_comm (a := edge.target = id)]

private theorem getD_foldl_countEnds (edges : List Edge)
    (hne : ∀ edge ∈ edges, edge.source ≠ edge.target) (table : Std.HashMap String Nat)
    (id : String) :
    (edges.foldl countEnds table).getD id 0 =
      table.getD id 0 + edges.countP (·.touches id) := by
  induction edges generalizing table with
  | nil => rfl
  | cons edge edges ih =>
    have htail : ∀ other ∈ edges, other.source ≠ other.target :=
      fun other ho => hne other (List.mem_cons_of_mem _ ho)
    rw [List.foldl_cons, ih htail, getD_countEnds table edge (hne edge List.mem_cons_self),
      List.countP_cons]
    omega

private theorem mem_foldl_countEnds (edges : List Edge) (table : Std.HashMap String Nat)
    (id : String) :
    id ∈ edges.foldl countEnds table ↔ (∃ edge ∈ edges, edge.touches id) ∨ id ∈ table := by
  induction edges generalizing table with
  | nil => simp
  | cons edge edges ih =>
    rw [List.foldl_cons, ih, mem_countEnds, ← or_assoc, or_comm (b := edge.touches id = true)]
    simp only [List.mem_cons, exists_eq_or_imp]

private theorem getElem?_zeros (nodes : List Node) (id : String) :
    (Std.HashMap.ofList (nodes.map fun node => (node.id, 0)))[id]? =
      if id ∈ nodes.map (·.id) then some 0 else none := by
  rw [Std.HashMap.ofList_eq_insertMany_empty]
  suffices h : ∀ table : Std.HashMap String Nat,
      (table.insertMany (nodes.map fun node => (node.id, 0)))[id]? =
        if id ∈ nodes.map (·.id) then some 0 else table[id]? by
    rw [h, Std.HashMap.getElem?_empty]
  intro table
  induction nodes generalizing table with
  | nil => rfl
  | cons node nodes ih =>
    rw [List.map_cons, Std.HashMap.insertMany_cons, ih, Std.HashMap.getElem?_insert, List.map_cons]
    by_cases htail : id ∈ nodes.map (·.id)
    · rw [if_pos htail, if_pos (List.mem_cons_of_mem _ htail)]
    · by_cases hid : node.id = id
      · simp [hid]
      · simp only [List.mem_cons, Ne.symm hid, htail, or_self, if_false, beq_iff_eq, hid]

namespace Consistent

variable {graph : Graph}

private theorem contains_of_touches (h : graph.Consistent) {edge : Edge} (he : edge ∈ graph.edges)
    {id : String} (hid : edge.touches id = true) : graph.contains id = true := by
  obtain ⟨-, hs, ht⟩ := h.joined edge he
  rcases (edge.touches_iff id).mp hid with rfl | rfl
  · exact hs
  · exact ht

theorem getElem?_degreeTable (h : graph.Consistent) (id : String) :
    graph.degreeTable[id]? = if graph.contains id then some (graph.degree id) else none := by
  have hids : graph.contains id = true ↔ id ∈ graph.nodes.toList.map (·.id) :=
    h.contains_iff_mem_ids
  rw [degreeTable, ← Array.foldl_toList, degree, ← Array.countP_toList]
  by_cases hid : graph.contains id = true
  · rw [if_pos hid]
    have hmem : id ∈ graph.edges.toList.foldl countEnds
        (.ofList (graph.nodes.toList.map fun node => (node.id, 0))) := by
      rw [mem_foldl_countEnds, Std.HashMap.mem_iff_isSome_getElem?, getElem?_zeros,
        if_pos (hids.mp hid)]
      exact Or.inr rfl
    rw [Std.HashMap.getElem?_eq_some_getD hmem, getD_foldl_countEnds,
      Std.HashMap.getD_eq_getD_getElem?, getElem?_zeros, if_pos (hids.mp hid)]
    · simp
    · exact fun edge he => (h.joined edge (Array.mem_toList_iff.mp he)).1
  · rw [if_neg hid]
    apply Std.HashMap.getElem?_eq_none
    rw [mem_foldl_countEnds, Std.HashMap.mem_iff_isSome_getElem?, getElem?_zeros,
      if_neg (fun hn => hid (hids.mpr hn))]
    rintro (⟨edge, he, ht⟩ | hfalse)
    · exact hid (h.contains_of_touches (Array.mem_toList_iff.mp he) ht)
    · contradiction

/-- Asking the table with a default agrees with counting, whether or not there is such a node. -/
theorem getD_degreeTable (h : graph.Consistent) (id : String) :
    graph.degreeTable.getD id 0 = graph.degree id := by
  rw [Std.HashMap.getD_eq_getD_getElem?, h.getElem?_degreeTable]
  by_cases hid : graph.contains id = true
  · rw [if_pos hid, Option.getD_some]
  · rw [if_neg hid, Option.getD_none, degree, eq_comm, Array.countP_eq_zero]
    intro edge he ht
    exact hid (h.contains_of_touches he ht)

private theorem toList_degreeTable_perm (h : graph.Consistent) :
    graph.degreeTable.toList.Perm
      (graph.nodes.toList.map fun node => (node.id, graph.degree node.id)) := by
  apply (List.perm_ext_iff_of_nodup ?_ ?_).mpr
  · rintro ⟨id, degree⟩
    rw [Std.HashMap.mem_toList_iff_getElem?_eq_some, h.getElem?_degreeTable, List.mem_map]
    constructor
    · intro heq
      split at heq
      · rename_i hid
        obtain ⟨node, hn, rfl⟩ := h.contains_iff.mp hid
        exact ⟨node, Array.mem_toList_iff.mpr hn, by rw [Option.some.inj heq]⟩
      · contradiction
    · rintro ⟨node, hn, heq⟩
      cases heq
      rw [if_pos (h.contains_of_mem (Array.mem_toList_iff.mp hn))]
  · refine Std.HashMap.distinct_keys_toList.imp fun {a b} hab heq => ?_
    rw [heq, beq_self_eq_true] at hab
    contradiction
  · have hids := h.nodes.nodup_keys
    rw [List.Nodup, List.pairwise_map] at hids ⊢
    exact hids.imp fun hne heq => hne (congrArg Prod.fst heq)

end Consistent

private theorem countP_touches {edge : Edge} (hne : edge.source ≠ edge.target) {ids : List String}
    (hids : ids.Nodup) (hs : edge.source ∈ ids) (ht : edge.target ∈ ids) :
    ids.countP (edge.touches ·) = 2 := by
  have hsplit : ids.countP (edge.touches ·) = ids.count edge.source + ids.count edge.target := by
    clear hids hs ht
    induction ids with
    | nil => rfl
    | cons id ids ih =>
      rw [List.countP_cons, List.count_cons, List.count_cons, ih]
      by_cases h₁ : id = edge.source
      · subst h₁
        simp [Edge.touches, hne]
        omega
      · by_cases h₂ : id = edge.target
        · subst h₂
          simp [Edge.touches, Ne.symm hne]
          omega
        · simp [Edge.touches, h₁, h₂, Ne.symm h₁, Ne.symm h₂]
  rw [hsplit, hids.count, hids.count, if_pos hs, if_pos ht]

private theorem sum_map_add_indicator (ids : List String) (f : String → Nat) (p : String → Bool) :
    (ids.map fun id => f id + if p id then 1 else 0).sum = (ids.map f).sum + ids.countP p := by
  induction ids with
  | nil => rfl
  | cons id ids ih =>
    rw [List.map_cons, List.sum_cons, ih, List.map_cons, List.sum_cons, List.countP_cons]
    omega

private theorem sum_countP_touches {ids : List String} (hids : ids.Nodup) (edges : List Edge)
    (h : ∀ edge ∈ edges,
      edge.source ≠ edge.target ∧ edge.source ∈ ids ∧ edge.target ∈ ids) :
    (ids.map fun id => edges.countP (·.touches id)).sum = 2 * edges.length := by
  induction edges with
  | nil =>
    simp only [List.countP_nil, List.length_nil]
    rw [List.map_const', List.sum_replicate_nat, Nat.mul_zero]
  | cons edge edges ih =>
    obtain ⟨hne, hs, ht⟩ := h edge List.mem_cons_self
    simp only [List.countP_cons]
    rw [sum_map_add_indicator, ih fun other ho => h other (List.mem_cons_of_mem _ ho),
      countP_touches hne hids hs ht, List.length_cons]
    omega

theorem Consistent.sum_degreeTable {graph : Graph} (h : graph.Consistent) :
    (graph.degreeTable.toList.map (·.2)).sum = 2 * graph.edges.size := by
  have hsum := sum_countP_touches h.nodes.nodup_keys graph.edges.toList (by
    intro edge he
    obtain ⟨hne, hs, ht⟩ := h.joined edge (Array.mem_toList_iff.mp he)
    exact ⟨hne, h.contains_iff_mem_ids.mp hs, h.contains_iff_mem_ids.mp ht⟩)
  calc (graph.degreeTable.toList.map (·.2)).sum
      = ((graph.nodes.toList.map fun node => (node.id, graph.degree node.id)).map (·.2)).sum :=
        (h.toList_degreeTable_perm.map _).sum_nat
    _ = ((graph.nodes.toList.map (·.id)).map
          fun id => graph.edges.toList.countP (·.touches id)).sum := by
        simp only [List.map_map, Function.comp_def, degree, Array.countP_toList]
    _ = 2 * graph.edges.size := by rw [hsum, Array.length_toList]

end Graph

end RepoGraph
