import RepoGraph.Resolve.Lookup

/-!
# First hits

A search goes through candidates in an order and stops at the first hit. Where the order of the
candidates is known, the hit is told by it alone: no candidate before the hit is one. The initial
parts of a name come in the order of their lengths, so that the longest part with a hit is found.
-/

namespace RepoGraph

section Order

variable {α β : Type} {before : α → α → Prop} {list : List α}

theorem findSome?_eq_some_iff_of_pairwise (hasymm : ∀ a b, before a b → ¬ before b a)
    (hordered : list.Pairwise before) {f : α → Option β} {found : β} :
    list.findSome? f = some found ↔
      ∃ a ∈ list, f a = some found ∧ ∀ other ∈ list, before other a → f other = none := by
  constructor
  · intro h
    obtain ⟨front, a, back, rfl, hfound, hnone⟩ := List.findSome?_eq_some_iff.mp h
    refine ⟨a, by simp, hfound, ?_⟩
    intro other hother hbefore
    rcases List.mem_append.mp hother with hfront | hback
    · exact hnone other hfront
    · -- Nothing from the hit on comes before it.
      have hcons := (List.pairwise_append.mp hordered).2.1
      rcases List.mem_cons.mp hback with rfl | hback
      · exact absurd hbefore (hasymm other other hbefore)
      · exact absurd hbefore (hasymm a other (List.rel_of_pairwise_cons hcons hback))
  · rintro ⟨a, ha, hfound, hnone⟩
    obtain ⟨front, back, rfl⟩ := List.append_of_mem ha
    refine List.findSome?_eq_some_iff.mpr ⟨front, a, back, rfl, hfound, ?_⟩
    intro other hother
    have hbefore := (List.pairwise_append.mp hordered).2.2 other hother a List.mem_cons_self
    exact hnone other (List.mem_append_left _ hother) hbefore

theorem find?_eq_some_iff_of_pairwise (hasymm : ∀ a b, before a b → ¬ before b a)
    (hordered : list.Pairwise before) {p : α → Bool} {found : α} :
    list.find? p = some found ↔
      found ∈ list ∧ p found = true ∧ ∀ other ∈ list, before other found → p other = false := by
  rw [List.find?_eq_findSome?_guard, findSome?_eq_some_iff_of_pairwise hasymm hordered]
  simp only [Option.guard_eq_none_iff, Option.guard_eq_some_iff]
  constructor
  · rintro ⟨a, ha, ⟨rfl, hp⟩, hnone⟩
    exact ⟨ha, hp, hnone⟩
  · rintro ⟨ha, hp, hnone⟩
    exact ⟨found, ha, ⟨rfl, hp⟩, hnone⟩

theorem findSome?_eq_some_iff_getElem? {f : α → Option β} {found : β} :
    list.findSome? f = some found ↔ ∃ (position : Nat) (a : α), list[position]? = some a ∧
      f a = some found ∧ ∀ earlier < position, ∀ other, list[earlier]? = some other →
        f other = none := by
  rw [List.findSome?_eq_some_iff]
  constructor
  · rintro ⟨front, a, back, rfl, hfound, hnone⟩
    refine ⟨front.length, a, by simp, hfound, ?_⟩
    intro earlier hearlier other hother
    rw [List.getElem?_append_left hearlier] at hother
    exact hnone other (List.mem_of_getElem? hother)
  · rintro ⟨position, a, ha, hfound, hnone⟩
    obtain ⟨hlt, rfl⟩ := List.getElem?_eq_some_iff.mp ha
    refine ⟨list.take position, list[position], list.drop (position + 1), ?_, hfound, ?_⟩
    · rw [← List.drop_eq_getElem_cons hlt, List.take_append_drop]
    · intro other hother
      obtain ⟨earlier, hearlier, rfl⟩ := List.mem_take_iff_getElem.mp hother
      exact hnone earlier (by omega) _ (List.getElem?_eq_getElem (by omega))

theorem find?_congr {α : Type} {p q : α → Bool} {l : List α} (h : ∀ a ∈ l, p a = q a) :
    l.find? p = l.find? q := by
  induction l with
  | nil => rfl
  | cons a l ih =>
    rw [List.find?_cons, List.find?_cons, h a List.mem_cons_self,
      ih fun b hb => h b (List.mem_cons_of_mem a hb)]

theorem findSome?_congr {f g : α → Option β} (h : ∀ a ∈ list, f a = g a) :
    list.findSome? f = list.findSome? g := by
  have hid (f : α → Option β) : list.findSome? f = (list.map f).findSome? id := by
    rw [List.findSome?_map]
    rfl
  rw [hid f, hid g, List.map_congr_left h]

end Order

section Parts

variable {α β : Type} {shortest : Nat} {parts part : List α}

theorem mem_initialParts_iff :
    part ∈ initialParts shortest parts ↔ part <+: parts ∧ shortest ≤ part.length := by
  rw [initialParts, List.mem_map]
  constructor
  · rintro ⟨i, hi, rfl⟩
    rw [List.mem_range] at hi
    refine ⟨List.take_prefix _ _, ?_⟩
    rw [List.length_take]
    omega
  · rintro ⟨hinitial, hlength⟩
    have hle := hinitial.length_le
    refine ⟨parts.length - part.length, List.mem_range.mpr (by omega), ?_⟩
    rw [Nat.sub_sub_self hle]
    exact (List.prefix_iff_eq_take.mp hinitial).symm

theorem pairwise_initialParts :
    (initialParts shortest parts).Pairwise fun a b => b.length < a.length := by
  rw [initialParts, List.pairwise_map]
  apply List.pairwise_lt_range.imp_of_mem
  intro i j _ hj hlt
  rw [List.mem_range] at hj
  rw [List.length_take, List.length_take]
  omega

theorem findSome?_initialParts_eq_some_iff {f : List α → Option β} {found : β} :
    (initialParts shortest parts).findSome? f = some found ↔
      ∃ part, part <+: parts ∧ shortest ≤ part.length ∧ f part = some found ∧
        ∀ longer, longer <+: parts → part.length < longer.length → f longer = none := by
  rw [findSome?_eq_some_iff_of_pairwise (fun _ _ => Nat.lt_asymm) pairwise_initialParts]
  constructor
  · rintro ⟨part, hmem, hfound, hnone⟩
    obtain ⟨hinitial, hlength⟩ := mem_initialParts_iff.mp hmem
    refine ⟨part, hinitial, hlength, hfound, ?_⟩
    intro longer hlonger hlt
    exact hnone longer (mem_initialParts_iff.mpr ⟨hlonger, by omega⟩) hlt
  · rintro ⟨part, hinitial, hlength, hfound, hnone⟩
    refine ⟨part, mem_initialParts_iff.mpr ⟨hinitial, hlength⟩, hfound, ?_⟩
    exact fun longer hmem hlt => hnone longer (mem_initialParts_iff.mp hmem).1 hlt

theorem findSome?_initialParts_eq_none_iff {f : List α → Option β} :
    (initialParts shortest parts).findSome? f = none ↔
      ∀ part, part <+: parts → shortest ≤ part.length → f part = none := by
  rw [List.findSome?_eq_none_iff]
  constructor
  · exact fun h part hinitial hlength => h part (mem_initialParts_iff.mpr ⟨hinitial, hlength⟩)
  · intro h part hmem
    obtain ⟨hinitial, hlength⟩ := mem_initialParts_iff.mp hmem
    exact h part hinitial hlength

end Parts

end RepoGraph
