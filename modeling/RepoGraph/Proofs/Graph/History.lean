import Mathlib.Data.List.Induction
import RepoGraph.Proofs.Graph.Degree

/-!
# Graphs and their histories

A graph is what a run of changes made of the empty graph. What it holds is read off the run: the ids
are those that were brought in, and the weight of an edge is the number of references that were made
between its ends while both were there. Positions, once given out, stay.
-/

namespace RepoGraph.Graph

def Change.introduces (id : String) : Change → Bool
  | upsert node => node.id == id
  | reference _ _ => false

def Change.isReference (source target : String) : Change → Bool
  | upsert _ => false
  | reference a b => a == source && b == target

def introduced (history : List Change) (id : String) : Bool :=
  history.any (Change.introduces id)

/-- Whether a reference that follows a history counts: its ends differ and both were brought in. -/
def accepted (history : List Change) (source target : String) : Bool :=
  source != target && introduced history source && introduced history target

/-- How many references between two ids count in a run that follows a history. -/
def countAfter (source target : String) (history : List Change) : List Change → Nat
  | [] => 0
  | change :: rest =>
    (if change.isReference source target && accepted history source target then 1 else 0) +
      countAfter source target (history ++ [change]) rest

/-- How many references between two ids count in a run. -/
def countAccepted (changes : List Change) (source target : String) : Nat :=
  countAfter source target [] changes

theorem introduced_append (before after : List Change) (id : String) :
    introduced (before ++ after) id = (introduced before id || introduced after id) :=
  List.any_append

theorem countAfter_append (source target : String) (history before after : List Change) :
    countAfter source target history (before ++ after) =
      countAfter source target history before +
        countAfter source target (history ++ before) after := by
  induction before generalizing history with
  | nil => simp [countAfter]
  | cons change before ih =>
    rw [List.cons_append, countAfter, ih, countAfter, List.append_assoc, List.singleton_append]
    omega

private theorem countAccepted_concat (changes : List Change) (change : Change)
    (source target : String) :
    countAccepted (changes ++ [change]) source target =
      countAccepted changes source target +
        if change.isReference source target && accepted changes source target then 1 else 0 := by
  rw [countAccepted, countAfter_append, countAccepted, countAfter, countAfter, List.nil_append,
    Nat.add_zero]

private theorem contains_apply (graph : Graph) (change : Change) (id : String) :
    (graph.apply change).contains id = (change.introduces id || graph.contains id) := by
  cases change with
  | upsert node => exact contains_upsert graph node id
  | reference source target => exact contains_addReference graph source target id

theorem contains_ofChanges (changes : List Change) (id : String) :
    (ofChanges changes).contains id = introduced changes id := by
  induction changes using List.reverseRecOn with
  | nil => simp [ofChanges, contains, introduced]
  | append_singleton changes change ih =>
    rw [ofChanges_concat, contains_apply, ih, introduced_append, Bool.or_comm]
    simp [introduced]

private theorem accepts_ofChanges (changes : List Change) (source target : String) :
    (ofChanges changes).Accepts source target ↔ accepted changes source target = true := by
  rw [Accepts, contains_ofChanges, contains_ofChanges, accepted, Bool.and_eq_true,
    Bool.and_eq_true, bne_iff_ne, and_assoc]

@[simp] theorem weight?_upsert (graph : Graph) (node : Node) (source target : String) :
    (graph.upsert node).1.weight? source target = graph.weight? source target := by
  rw [weight?, edge?_upsert, weight?]

private theorem weight?_addReference {graph : Graph} (h : graph.Consistent) {a b : String}
    (ha : graph.Accepts a b) (source target : String) :
    (graph.addReference a b).1.weight? source target =
      if a = source ∧ b = target then some ((graph.weight? a b).getD 0 + 1)
      else graph.weight? source target := by
  rw [weight?, edge?_addReference h ha]
  by_cases hst : a = source ∧ b = target
  · rw [if_pos hst, if_pos hst, weight?]
    cases graph.edge? a b with
    | none => rfl
    | some edge => rfl
  · rw [if_neg hst, if_neg hst, weight?]

/-- The weight between two ids is the number of references that counted, in 32 bits. -/
theorem weight?_ofChanges (changes : List Change) (source target : String) :
    (ofChanges changes).weight? source target =
      if countAccepted changes source target = 0 then none
      else some (UInt32.ofNat (countAccepted changes source target)) := by
  induction changes using List.reverseRecOn with
  | nil => simp [ofChanges, weight?, edge?, countAccepted, countAfter]
  | append_singleton changes change ih =>
    rw [ofChanges_concat, countAccepted_concat]
    cases change with
    | upsert node =>
      rw [apply, weight?_upsert, ih]
      simp [Change.isReference]
    | reference a b =>
      rw [apply]
      by_cases ha : (ofChanges changes).Accepts a b
      · rw [weight?_addReference (consistent_ofChanges changes) ha]
        by_cases hst : a = source ∧ b = target
        · obtain ⟨rfl, rfl⟩ := hst
          have hacc := (accepts_ofChanges changes a b).mp ha
          rw [if_pos ⟨rfl, rfl⟩, ih, hacc]
          by_cases hzero : countAccepted changes a b = 0
          · simp [hzero, Change.isReference]
          · simp [hzero, Change.isReference, UInt32.ofNat_add]
        · rw [if_neg hst, ih]
          have hno : Change.isReference source target (.reference a b) = false := by
            simpa [Change.isReference] using hst
          rw [hno, Bool.false_and, if_neg Bool.false_ne_true, Nat.add_zero]
      · rw [addReference_of_not_accepts ha, ih]
        -- A refused reference may be one between these ids, but the history refuses it too.
        have hno : (Change.isReference source target (.reference a b) &&
            accepted changes source target) = false := by
          rw [Bool.and_eq_false_iff]
          by_cases hst : a = source ∧ b = target
          · obtain ⟨rfl, rfl⟩ := hst
            right
            rw [← Bool.not_eq_true, ← accepts_ofChanges]
            exact ha
          · left
            simpa [Change.isReference] using hst
        rw [hno, if_neg Bool.false_ne_true, Nat.add_zero]

theorem isSome_edge?_ofChanges (changes : List Change) (source target : String) :
    ((ofChanges changes).edge? source target).isSome ↔
      0 < countAccepted changes source target := by
  have h := congrArg Option.isSome (weight?_ofChanges changes source target)
  rw [weight?, Option.isSome_map] at h
  rw [h]
  by_cases hzero : countAccepted changes source target = 0
  · simp [hzero]
  · simp [hzero, Nat.pos_of_ne_zero hzero]

private theorem nodeAt_foldl_of_some {id : String} {i : Nat} (changes : List Change) {graph : Graph}
    (h : graph.nodeAt[id]? = some i) : (changes.foldl apply graph).nodeAt[id]? = some i := by
  induction changes generalizing graph with
  | nil => exact h
  | cons change changes ih =>
    apply ih
    cases change with
    | upsert node => exact nodeAt_upsert_of_some h node
    | reference source target =>
      rw [apply, nodeAt_addReference]
      exact h

private theorem edgeAt_foldl_of_some {pair : String × String} {i : Nat} (changes : List Change)
    {graph : Graph} (h : graph.edgeAt[pair]? = some i) :
    (changes.foldl apply graph).edgeAt[pair]? = some i := by
  induction changes generalizing graph with
  | nil => exact h
  | cons change changes ih =>
    apply ih
    cases change with
    | upsert node =>
      rw [apply, edgeAt_upsert]
      exact h
    | reference source target => exact edgeAt_addReference_of_some h source target

private theorem contains_foldl {id : String} (changes : List Change) {graph : Graph}
    (h : graph.contains id = true) : (changes.foldl apply graph).contains id = true := by
  induction changes generalizing graph with
  | nil => exact h
  | cons change changes ih =>
    apply ih
    rw [contains_apply, h, Bool.or_true]

private theorem upsert_snd_of_some {graph : Graph} {node : Node} {i : Nat}
    (h : graph.nodeAt[node.id]? = some i) : (graph.upsert node).2 = i := by
  have hself := nodeAt_upsert_self graph node
  rw [nodeAt_upsert_of_some h node] at hself
  exact (Option.some.inj hself).symm

private theorem addReference_snd_of_some {graph : Graph} {source target : String} {i : Nat}
    (ha : graph.Accepts source target) (h : graph.edgeAt[(source, target)]? = some i) :
    (graph.addReference source target).2 = some i := by
  have hsome := (addReference_isSome_iff graph source target).mpr ha
  obtain ⟨j, hj⟩ := Option.isSome_iff_exists.mp hsome
  have hself := edgeAt_addReference_self hj
  rw [edgeAt_addReference_of_some h] at hself
  rw [hj, ← hself]

private theorem upsert_snd_later (changes later : List Change) (node other : Node)
    (hid : other.id = node.id) :
    ((ofChanges (changes ++ .upsert node :: later)).upsert other).2 =
      ((ofChanges changes).upsert node).2 := by
  apply upsert_snd_of_some
  rw [hid, ofChanges_append, List.foldl_cons]
  exact nodeAt_foldl_of_some later (nodeAt_upsert_self _ node)

private theorem addReference_snd_later (changes later : List Change) (source target : String)
    (i : Nat) (h : ((ofChanges changes).addReference source target).2 = some i) :
    ((ofChanges (changes ++ .reference source target :: later)).addReference source target).2 =
      some i := by
  rw [ofChanges_append, List.foldl_cons, apply]
  apply addReference_snd_of_some
  · obtain ⟨hne, hs, ht⟩ := (addReference_isSome_iff _ _ _).mp (by rw [h]; rfl)
    refine ⟨hne, contains_foldl later ?_, contains_foldl later ?_⟩
    · rw [contains_addReference, hs]
    · rw [contains_addReference, ht]
  · exact edgeAt_foldl_of_some later (edgeAt_addReference_self h)

/-- The shape that every graph has: a node for an id, an edge for a pair of different nodes. -/
structure WellFormed (graph : Graph) : Prop where
  ids_nodup : (graph.nodes.toList.map (·.id)).Nodup
  /-- The table sends an id to the position of its node, and to nothing else. -/
  nodeAt_iff : ∀ id i,
    graph.nodeAt[id]? = some i ↔ ∃ node : Node, graph.nodes[i]? = some node ∧ node.id = id
  ends_nodup : (graph.edges.toList.map Edge.ends).Nodup
  source_ne_target : ∀ edge ∈ graph.edges, edge.source ≠ edge.target
  ends_mem : ∀ edge ∈ graph.edges,
    (∃ node ∈ graph.nodes, node.id = edge.source) ∧ ∃ node ∈ graph.nodes, node.id = edge.target
  edge?_iff : ∀ source target edge, graph.edge? source target = some edge ↔
    edge ∈ graph.edges ∧ edge.source = source ∧ edge.target = target

theorem Consistent.wellFormed {graph : Graph} (h : graph.Consistent) : graph.WellFormed where
  ids_nodup := h.nodes.nodup_keys
  nodeAt_iff id i := by
    rw [h.nodes id i, Option.map_eq_some_iff]
  ends_nodup := h.edges.nodup_keys
  source_ne_target edge he := (h.joined edge he).1
  ends_mem edge he := by
    obtain ⟨-, hs, ht⟩ := h.joined edge he
    exact ⟨h.contains_iff.mp hs, h.contains_iff.mp ht⟩
  edge?_iff _ _ _ := h.edge?_eq_some_iff

private theorem stats_internal_add_external (graph : Graph) :
    graph.stats.internalNodeCount + graph.stats.externalNodeCount = graph.stats.nodeCount := by
  have hle : graph.nodes.countP (·.isInternal) ≤ graph.nodes.size := Array.countP_le_size
  change UInt64.ofNat _ + UInt64.ofNat _ = UInt64.ofNat _
  rw [← UInt64.ofNat_add, Nat.add_sub_cancel' hle]

private theorem stats_internalNodeCount (graph : Graph) :
    graph.stats.internalNodeCount = .ofNat (graph.nodes.toList.countP fun node => node.isInternal) := by
  rw [Array.countP_toList]
  rfl

theorem weight?_toNat_ofChanges {changes : List Change} {source target : String}
    (h : countAccepted changes source target < UInt32.size) :
    ((ofChanges changes).weight? source target).elim 0 UInt32.toNat =
      countAccepted changes source target := by
  rw [weight?_ofChanges]
  by_cases hzero : countAccepted changes source target = 0
  · rw [if_pos hzero, hzero]
    rfl
  · rw [if_neg hzero]
    exact UInt32.toNat_ofNat_of_lt h

/-- Every run of changes leaves a well-formed graph whose edges count exactly the references that
were made between two different nodes already there. A position that a change returns for an id or a
pair is returned again by every later change for it. The table of degrees has the nodes as keys and
agrees with counting, and its entries add up to twice the number of edges. The sizes are the numbers
of nodes, of edges and of internal nodes, and the two kinds of nodes add up to all nodes. -/
theorem ofChanges_wellFormed (changes : List Change) :
    (ofChanges changes).WellFormed ∧
    (∀ source target,
      ((ofChanges changes).edge? source target).isSome ↔
        0 < countAccepted changes source target) ∧
    (∀ source target, countAccepted changes source target < UInt32.size →
      ((ofChanges changes).weight? source target).elim 0 UInt32.toNat =
        countAccepted changes source target) ∧
    (∀ node later other, other.id = node.id →
      ((ofChanges (changes ++ .upsert node :: later)).upsert other).2 =
        ((ofChanges changes).upsert node).2) ∧
    (∀ source target later i, ((ofChanges changes).addReference source target).2 = some i →
      ((ofChanges (changes ++ .reference source target :: later)).addReference source target).2 =
        some i) ∧
    (∀ id, (ofChanges changes).degreeTable[id]? =
      if (ofChanges changes).contains id then some ((ofChanges changes).degree id) else none) ∧
    ((ofChanges changes).degreeTable.toList.map (·.2)).sum = 2 * (ofChanges changes).edges.size ∧
    (ofChanges changes).stats.nodeCount = .ofNat (ofChanges changes).nodes.size ∧
    (ofChanges changes).stats.edgeCount = .ofNat (ofChanges changes).edges.size ∧
    (ofChanges changes).stats.internalNodeCount =
      .ofNat ((ofChanges changes).nodes.toList.countP fun node => node.isInternal) ∧
    (ofChanges changes).stats.internalNodeCount + (ofChanges changes).stats.externalNodeCount =
      (ofChanges changes).stats.nodeCount := by
  have h := consistent_ofChanges changes
  refine ⟨h.wellFormed, isSome_edge?_ofChanges changes, ?_, ?_, ?_, h.getElem?_degreeTable,
    h.sum_degreeTable, rfl, rfl, stats_internalNodeCount _, stats_internal_add_external _⟩
  · intro source target hlt
    exact weight?_toNat_ofChanges hlt
  · intro node later other hid
    exact upsert_snd_later changes later node other hid
  · intro source target later i hi
    exact addReference_snd_later changes later source target i hi

/-- A run with a reference that comes too early, two that count and a loop. -/
def earlyReferenceRun : List Change :=
  [.upsert (.internal "a.py" none), .reference "a.py" "b.py", .upsert (.internal "b.py" none),
    .reference "a.py" "b.py", .reference "a.py" "b.py", .reference "a.py" "a.py"]

theorem ofChanges_wellFormed_earlyReferenceRun :
    countAccepted earlyReferenceRun "a.py" "b.py" < UInt32.size ∧
      ((ofChanges earlyReferenceRun).weight? "a.py" "b.py").elim 0 UInt32.toNat = 2 := by
  have hcount : countAccepted earlyReferenceRun "a.py" "b.py" = 2 := by decide
  have hlt : countAccepted earlyReferenceRun "a.py" "b.py" < UInt32.size := by
    rw [hcount]
    decide
  refine ⟨hlt, ?_⟩
  rw [(ofChanges_wellFormed earlyReferenceRun).2.2.1 "a.py" "b.py" hlt, hcount]

end RepoGraph.Graph
