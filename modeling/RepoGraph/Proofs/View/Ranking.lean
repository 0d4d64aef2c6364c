import RepoGraph.Proofs.Graph.Degree
import RepoGraph.Proofs.Text.ByteOrder
import RepoGraph.View.Basic

/-!
# The orders of a view

Nodes are ranked by degree and then by id, edges by weight and then by source and target. On a graph
no two nodes and no two edges tie, so the first elements in these orders are determined.
-/

namespace RepoGraph

open Text

variable {α : Type}

/-- The first elements, up to a number of them, of a list put in a strict order. -/
def IsTop (before : α → α → Prop) (items : List α) (count : Nat) (top : List α) : Prop :=
  ∃ ranking : List α, ranking.Perm items ∧ ranking.Pairwise before ∧ top = ranking.take count

namespace IsTop

variable {before : α → α → Prop} {items top : List α} {count : Nat}

theorem pairwise (h : IsTop before items count top) : top.Pairwise before := by
  obtain ⟨ranking, -, hsorted, rfl⟩ := h
  exact hsorted.take

theorem length_le (h : IsTop before items count top) : top.length ≤ count := by
  obtain ⟨ranking, -, -, rfl⟩ := h
  exact List.length_take_le count ranking

theorem mem (h : IsTop before items count top) {a : α} (ha : a ∈ top) : a ∈ items := by
  obtain ⟨ranking, hperm, -, rfl⟩ := h
  exact hperm.mem_iff.mp (List.mem_of_mem_take ha)

/-- An order without ties both ways leaves no choice, however the elements are listed. -/
theorem eq_of_perm {items' top' : List α} (asymm : ∀ a b, before a b → ¬ before b a)
    (h : IsTop before items count top) (h' : IsTop before items' count top')
    (hperm : items.Perm items') : top = top' := by
  obtain ⟨ranking, hr, hsorted, rfl⟩ := h
  obtain ⟨ranking', hr', hsorted', rfl⟩ := h'
  have heq : ranking = ranking' := by
    apply List.Perm.eq_of_pairwise ?_ hsorted hsorted' (hr.trans (hperm.trans hr'.symm))
    intro a b _ _ hab hba
    exact absurd hba (asymm a b hab)
  rw [heq]

end IsTop

/-- Sorting and taking gives the first elements, if the sort is strict on different elements. -/
theorem isTop_mergeSort {le : α → α → Bool} {before : α → α → Prop}
    (trans : ∀ a b c, le a b = true → le b c = true → le a c = true)
    (total : ∀ a b, (le a b || le b a) = true) {items : List α} (hnodup : items.Nodup)
    (strict : ∀ a ∈ items, ∀ b ∈ items, a ≠ b → le a b = true → before a b) (count : Nat) :
    IsTop before items count ((items.mergeSort le).take count) := by
  have hperm := List.mergeSort_perm items le
  have hsorted := List.pairwise_mergeSort trans total items
  have hnd : (items.mergeSort le).Pairwise (· ≠ ·) := hperm.nodup_iff.mpr hnodup
  refine ⟨items.mergeSort le, hperm, ?_, rfl⟩
  apply (hsorted.and hnd).imp_of_mem
  intro a b ha hb hab
  exact strict a (hperm.mem_iff.mp ha) b (hperm.mem_iff.mp hb) hab.2 hab.1

/-- A node outranks another if it has more edges, or as many and the smaller id in bytes. -/
def Graph.Outranks (graph : Graph) (a b : Node) : Prop :=
  graph.degree b.id < graph.degree a.id ∨
    graph.degree a.id = graph.degree b.id ∧ bytes a.id < bytes b.id

theorem Graph.Outranks.asymm {graph : Graph} {a b : Node} (h : graph.Outranks a b) :
    ¬ graph.Outranks b a := by
  rintro (hba | ⟨heq, hba⟩)
  · rcases h with hab | ⟨heq, -⟩ <;> omega
  · rcases h with hab | ⟨-, hab⟩
    · omega
    · exact List.lt_asymm hab hba

namespace GraphView

private theorem ranksBefore_iff (degree : String → Nat) (a b : Node) :
    ranksBefore degree a b = true ↔
      degree b.id < degree a.id ∨ degree a.id = degree b.id ∧ a.id ≤ b.id := by
  rw [ranksBefore, Bool.or_eq_true, Bool.and_eq_true, decide_eq_true_iff, decide_eq_true_iff,
    beq_iff_eq]

theorem ranksBefore_trans (degree : String → Nat) (a b c : Node)
    (hab : ranksBefore degree a b = true) (hbc : ranksBefore degree b c = true) :
    ranksBefore degree a c = true := by
  rw [ranksBefore_iff] at *
  rcases hab with hab | ⟨hab, hid⟩
  · left
    rcases hbc with hbc | ⟨hbc, -⟩ <;> omega
  · rcases hbc with hbc | ⟨hbc, hid'⟩
    · left
      omega
    · exact Or.inr ⟨hab.trans hbc, String.le_trans hid hid'⟩

theorem ranksBefore_total (degree : String → Nat) (a b : Node) :
    (ranksBefore degree a b || ranksBefore degree b a) = true := by
  rw [Bool.or_eq_true, ranksBefore_iff, ranksBefore_iff]
  rcases Nat.lt_trichotomy (degree a.id) (degree b.id) with hlt | heq | hgt
  · exact Or.inr (Or.inl hlt)
  · rcases String.le_total a.id b.id with hid | hid
    · exact Or.inl (Or.inr ⟨heq, hid⟩)
    · exact Or.inr (Or.inr ⟨heq.symm, hid⟩)
  · exact Or.inl (Or.inl hgt)

theorem outranks_of_ranksBefore {graph : Graph} {a b : Node} (hne : a.id ≠ b.id)
    (h : ranksBefore graph.degree a b = true) : graph.Outranks a b := by
  rcases (ranksBefore_iff _ a b).mp h with hlt | ⟨heq, hid⟩
  · exact Or.inl hlt
  · exact Or.inr ⟨heq, lt_iff_bytes_lt.mp (Std.lt_of_le_of_ne hid hne)⟩

end GraphView

/-- An edge outweighs another if it is heavier, or as heavy and its source, or else its target, is
the smaller one in bytes. -/
def Edge.Outweighs (a b : Edge) : Prop :=
  b.weight < a.weight ∨
    a.weight = b.weight ∧
      (bytes a.source < bytes b.source ∨
        a.source = b.source ∧ bytes a.target < bytes b.target)

theorem Edge.Outweighs.asymm {a b : Edge} (h : a.Outweighs b) : ¬ b.Outweighs a := by
  rintro (hba | ⟨hw, hba⟩)
  · rcases h with hab | ⟨hw, -⟩
    · exact UInt32.lt_asymm hab hba
    · exact UInt32.ne_of_lt hba hw
  · rcases h with hab | ⟨-, hab⟩
    · exact UInt32.ne_of_lt hab hw
    · rcases hab with hab | ⟨hs, hab⟩
      · rcases hba with hba | ⟨hs, -⟩
        · exact List.lt_asymm hab hba
        · rw [hs] at hab
          exact List.lt_irrefl _ hab
      · rcases hba with hba | ⟨-, hba⟩
        · rw [hs] at hba
          exact List.lt_irrefl _ hba
        · exact List.lt_asymm hab hba

namespace GraphView

private theorem showsBefore_iff (a b : Edge) :
    showsBefore a b = true ↔
      b.weight < a.weight ∨
        a.weight = b.weight ∧
          (a.source < b.source ∨ a.source = b.source ∧ a.target ≤ b.target) := by
  rw [showsBefore, Bool.or_eq_true, Bool.and_eq_true, Bool.or_eq_true, Bool.and_eq_true,
    decide_eq_true_iff, decide_eq_true_iff, decide_eq_true_iff, beq_iff_eq, beq_iff_eq]

theorem showsBefore_trans (a b c : Edge) (hab : showsBefore a b = true)
    (hbc : showsBefore b c = true) : showsBefore a c = true := by
  rw [showsBefore_iff] at *
  rcases hab with hab | ⟨hw, hab⟩
  · left
    rcases hbc with hbc | ⟨hw, -⟩
    · exact UInt32.lt_trans hbc hab
    · rw [← hw]
      exact hab
  · rcases hbc with hbc | ⟨hw', hbc⟩
    · left
      rw [hw]
      exact hbc
    · refine Or.inr ⟨hw.trans hw', ?_⟩
      rcases hab with hab | ⟨hs, hab⟩
      · left
        rcases hbc with hbc | ⟨hs, -⟩
        · exact String.lt_trans hab hbc
        · rw [← hs]
          exact hab
      · rcases hbc with hbc | ⟨hs', hbc⟩
        · left
          rw [hs]
          exact hbc
        · exact Or.inr ⟨hs.trans hs', String.le_trans hab hbc⟩

theorem showsBefore_total (a b : Edge) : (showsBefore a b || showsBefore b a) = true := by
  rw [Bool.or_eq_true, showsBefore_iff, showsBefore_iff]
  rcases Nat.lt_trichotomy a.weight.toNat b.weight.toNat with hlt | hnat | hgt
  · exact Or.inr (Or.inl (UInt32.lt_iff_toNat_lt.mpr hlt))
  · have heq : a.weight = b.weight := UInt32.toNat_inj.mp hnat
    by_cases hs : a.source = b.source
    · rcases String.le_total a.target b.target with ht | ht
      · exact Or.inl (Or.inr ⟨heq, Or.inr ⟨hs, ht⟩⟩)
      · exact Or.inr (Or.inr ⟨heq.symm, Or.inr ⟨hs.symm, ht⟩⟩)
    · rcases String.le_total a.source b.source with hle | hle
      · exact Or.inl (Or.inr ⟨heq, Or.inl (Std.lt_of_le_of_ne hle hs)⟩)
      · exact Or.inr (Or.inr ⟨heq.symm, Or.inl (Std.lt_of_le_of_ne hle (Ne.symm hs))⟩)
  · exact Or.inl (Or.inl (UInt32.lt_iff_toNat_lt.mpr hgt))

theorem outweighs_of_showsBefore {a b : Edge} (hne : a.ends ≠ b.ends)
    (h : showsBefore a b = true) : a.Outweighs b := by
  rcases (showsBefore_iff a b).mp h with hlt | ⟨hw, hs | ⟨hs, ht⟩⟩
  · exact Or.inl hlt
  · exact Or.inr ⟨hw, Or.inl (lt_iff_bytes_lt.mp hs)⟩
  · have hne' : a.target ≠ b.target := by
      intro heq
      exact hne (Prod.ext hs heq)
    exact Or.inr ⟨hw, Or.inr ⟨hs, lt_iff_bytes_lt.mp (Std.lt_of_le_of_ne ht hne')⟩⟩

end GraphView

end RepoGraph
