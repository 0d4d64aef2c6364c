import RepoGraph.Graph.Basic
import Std.Data.HashMap.Lemmas

/-!
# Tables of positions

A graph keeps its nodes and its edges in arrays, with a table of the positions by key beside each.
A table that holds exactly the positions of the items makes a key stand for one item.
-/

namespace RepoGraph

variable {α κ : Type} [BEq κ] [Hashable κ]

/-- The table holds the position of every item under its key, and no other position. -/
def Locates (positions : Std.HashMap κ Nat) (key : α → κ) (items : Array α) : Prop :=
  ∀ k i, positions[k]? = some i ↔ items[i]?.map key = some k

def itemAt? (positions : Std.HashMap κ Nat) (items : Array α) (k : κ) : Option α :=
  positions[k]?.bind fun i => items[i]?

namespace Locates

variable {positions : Std.HashMap κ Nat} {key : α → κ} {items : Array α}

theorem empty [LawfulBEq κ] [LawfulHashable κ] :
    Locates ({} : Std.HashMap κ Nat) key #[] := by
  intro k i
  simp

private theorem lt_size (h : Locates positions key items) {k : κ} {i : Nat}
    (hi : positions[k]? = some i) : i < items.size := by
  have hkey := (h k i).mp hi
  rcases Nat.lt_or_ge i items.size with hlt | hge
  · exact hlt
  · rw [Array.getElem?_eq_none hge] at hkey
    contradiction

theorem item_of_position (h : Locates positions key items) {k : κ} {i : Nat}
    (hi : positions[k]? = some i) : ∃ x, items[i]? = some x ∧ key x = k := by
  have hkey := (h k i).mp hi
  exact Option.map_eq_some_iff.mp hkey

theorem itemAt?_eq_some_iff (h : Locates positions key items) {k : κ} {x : α} :
    itemAt? positions items k = some x ↔ x ∈ items ∧ key x = k := by
  constructor
  · intro hx
    obtain ⟨i, hi, hget⟩ := Option.bind_eq_some_iff.mp hx
    obtain ⟨y, hy, hkey⟩ := h.item_of_position hi
    rw [hget] at hy
    cases hy
    exact ⟨Array.mem_of_getElem? hget, hkey⟩
  · rintro ⟨hx, rfl⟩
    obtain ⟨i, hi⟩ := Array.getElem?_of_mem hx
    have hpos : positions[key x]? = some i := (h (key x) i).mpr (by rw [hi]; rfl)
    rw [itemAt?, hpos]
    exact hi

theorem eq_of_key_eq (h : Locates positions key items) {x y : α} (hx : x ∈ items)
    (hy : y ∈ items) (hkey : key x = key y) : x = y := by
  have hxk := h.itemAt?_eq_some_iff.mpr ⟨hx, hkey⟩
  have hyk := h.itemAt?_eq_some_iff.mpr ⟨hy, rfl⟩
  rw [hxk] at hyk
  exact Option.some.inj hyk

theorem contains_iff [LawfulBEq κ] [LawfulHashable κ] (h : Locates positions key items) {k : κ} :
    positions.contains k = true ↔ ∃ x ∈ items, key x = k := by
  rw [Std.HashMap.contains_eq_isSome_getElem?, Option.isSome_iff_exists]
  constructor
  · rintro ⟨i, hi⟩
    obtain ⟨x, hx, hkey⟩ := h.item_of_position hi
    exact ⟨x, Array.mem_of_getElem? hx, hkey⟩
  · rintro ⟨x, hx, rfl⟩
    obtain ⟨i, hi⟩ := Array.getElem?_of_mem hx
    exact ⟨i, (h (key x) i).mpr (by rw [hi]; rfl)⟩

theorem nodup_keys (h : Locates positions key items) : (items.toList.map key).Nodup := by
  rw [List.Nodup, List.pairwise_iff_getElem]
  intro i j hi hj hij heq
  simp only [List.length_map, Array.length_toList] at hi hj
  simp only [List.getElem_map, Array.getElem_toList] at heq
  have hpi := (h (key items[j]) i).mpr (by rw [Array.getElem?_eq_getElem hi, ← heq]; rfl)
  have hpj := (h (key items[j]) j).mpr (by rw [Array.getElem?_eq_getElem hj]; rfl)
  rw [hpi] at hpj
  have := Option.some.inj hpj
  omega

theorem push [LawfulBEq κ] [LawfulHashable κ] (h : Locates positions key items) (x : α)
    (hx : positions[key x]? = none) :
    Locates (positions.insert (key x) items.size) key (items.push x) := by
  intro k i
  rw [Std.HashMap.getElem?_insert, Array.getElem?_push]
  by_cases hk : key x = k
  · subst hk
    rw [if_pos (beq_self_eq_true _)]
    by_cases hi : i = items.size
    · simp [hi]
    · rw [if_neg hi, ← h (key x) i, hx]
      simp [Ne.symm hi]
  · rw [if_neg (by simpa using hk), h k i]
    by_cases hi : i = items.size
    · simp [hi, hk]
    · rw [if_neg hi]

theorem modify (h : Locates positions key items) (i : Nat) (f : α → α)
    (hf : ∀ x, key (f x) = key x) : Locates positions key (items.modify i f) := by
  intro k j
  rw [h k j, Array.getElem?_modify]
  by_cases hij : i = j
  · rw [if_pos hij, Option.map_map, show key ∘ f = key from funext hf]
  · rw [if_neg hij]

theorem itemAt?_push [LawfulBEq κ] [LawfulHashable κ] (h : Locates positions key items) (x : α)
    (k : κ) :
    itemAt? (positions.insert (key x) items.size) (items.push x) k =
      if key x == k then some x else itemAt? positions items k := by
  rw [itemAt?, Std.HashMap.getElem?_insert]
  by_cases hk : key x == k
  · simp [hk]
  · rw [if_neg hk, if_neg hk, itemAt?]
    apply Option.bind_congr
    intro i hi
    have := h.lt_size hi
    rw [Array.getElem?_push, if_neg (by omega)]

theorem itemAt?_modify [LawfulBEq κ] (h : Locates positions key items) {k₀ : κ} {i : Nat}
    (hi : positions[k₀]? = some i) (f : α → α) (k : κ) :
    itemAt? positions (items.modify i f) k =
      if k₀ == k then (itemAt? positions items k).map f else itemAt? positions items k := by
  rw [itemAt?, itemAt?]
  by_cases hk : k₀ = k
  · subst hk
    rw [if_pos (beq_self_eq_true _), hi, Option.bind_some, Option.bind_some,
      Array.getElem?_modify, if_pos rfl]
  · rw [if_neg (by simpa using hk)]
    apply Option.bind_congr
    intro j hj
    have hij : i ≠ j := by
      intro heq
      subst heq
      obtain ⟨x, hx, hkx⟩ := h.item_of_position hi
      obtain ⟨y, hy, hky⟩ := h.item_of_position hj
      rw [hx] at hy
      cases hy
      exact hk (hkx.symm.trans hky)
    rw [Array.getElem?_modify, if_neg hij]

end Locates

end RepoGraph
