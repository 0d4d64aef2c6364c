/-!
# Sorted texts

Sorting by texts puts them in order and leaves entries of one text in the order in which they were.
Of a sorted list, leaving out equal neighbours leaves out all repetitions. In entries sorted by
their keys the first hit is the one with the smallest key.
-/

namespace RepoGraph

section

variable {α : Type} [BEq α]

private theorem eraseReps_loop (a : α) (xs acc : List α) :
    List.eraseRepsBy.loop (· == ·) a xs acc =
      acc.reverse ++ List.eraseRepsBy.loop (· == ·) a xs [] := by
  induction xs generalizing a acc with
  | nil => simp [List.eraseRepsBy.loop]
  | cons b xs ih =>
    rw [List.eraseRepsBy.loop, List.eraseRepsBy.loop]
    cases a == b with
    | true => exact ih a acc
    | false =>
      dsimp only
      rw [ih b (a :: acc), ih b [a]]
      simp

private theorem eraseReps_cons_cons (a b : α) (xs : List α) :
    (a :: b :: xs).eraseReps =
      if a == b then (a :: xs).eraseReps else a :: (b :: xs).eraseReps := by
  rw [List.eraseReps, List.eraseRepsBy, List.eraseRepsBy.loop]
  cases a == b with
  | true => rfl
  | false =>
    dsimp only
    rw [eraseReps_loop b xs [a]]
    rfl

end

theorem mem_of_mem_eraseReps {xs : List String} {s : String} (h : s ∈ xs.eraseReps) : s ∈ xs := by
  cases xs with
  | nil => exact h
  | cons a xs =>
    induction xs generalizing a with
    | nil => exact h
    | cons b xs ih =>
      rw [eraseReps_cons_cons] at h
      split at h
      · rcases List.mem_cons.mp (ih a h) with rfl | hs
        · exact List.mem_cons_self
        · exact List.mem_cons_of_mem _ (List.mem_cons_of_mem _ hs)
      · rcases List.mem_cons.mp h with rfl | hs
        · exact List.mem_cons_self
        · exact List.mem_cons_of_mem _ (ih b hs)

theorem mem_eraseReps_of_mem {xs : List String} {s : String} (h : s ∈ xs) : s ∈ xs.eraseReps := by
  cases xs with
  | nil => exact h
  | cons a xs =>
    induction xs generalizing a with
    | nil => exact h
    | cons b xs ih =>
      rw [eraseReps_cons_cons]
      by_cases hab : a = b
      · subst hab
        rw [if_pos (beq_self_eq_true _)]
        apply ih
        rcases List.mem_cons.mp h with rfl | hs
        · exact List.mem_cons_self
        · exact hs
      · rw [if_neg (by simpa using hab)]
        rcases List.mem_cons.mp h with rfl | hs
        · exact List.mem_cons_self
        · exact List.mem_cons_of_mem _ (ih b hs)

theorem pairwise_lt_eraseReps {xs : List String} (h : xs.Pairwise (· ≤ ·)) :
    xs.eraseReps.Pairwise (· < ·) := by
  cases xs with
  | nil => exact List.Pairwise.nil
  | cons a xs =>
    induction xs generalizing a with
    | nil => exact List.pairwise_singleton _ a
    | cons b xs ih =>
      rw [eraseReps_cons_cons]
      have htail := (List.pairwise_cons.mp h).2
      by_cases hab : a = b
      · subst hab
        rw [if_pos (beq_self_eq_true _)]
        exact ih a htail
      · rw [if_neg (by simpa using hab)]
        refine List.pairwise_cons.mpr ⟨?_, ih b htail⟩
        intro s hs
        have hsb : b ≤ s := by
          rcases List.mem_cons.mp (mem_of_mem_eraseReps hs) with rfl | hs'
          · exact String.le_refl _
          · exact (List.pairwise_cons.mp htail).1 s hs'
        have hle : a ≤ b := (List.pairwise_cons.mp h).1 b List.mem_cons_self
        exact Std.lt_of_lt_of_le (Std.lt_of_le_of_ne hle hab) hsb

section

variable {α : Type} (text : α → String)

private theorem text_le_trans (a b c : α) (hab : decide (text a ≤ text b) = true)
    (hbc : decide (text b ≤ text c) = true) : decide (text a ≤ text c) = true := by
  rw [decide_eq_true_iff] at *
  exact String.le_trans hab hbc

private theorem text_le_total (a b : α) :
    (decide (text a ≤ text b) || decide (text b ≤ text a)) = true := by
  rw [Bool.or_eq_true, decide_eq_true_iff, decide_eq_true_iff]
  exact String.le_total (text a) (text b)

theorem pairwise_mergeSort_text (items : List α) :
    (items.mergeSort fun a b => text a ≤ text b).Pairwise fun a b => text a ≤ text b := by
  have h := List.pairwise_mergeSort (text_le_trans text) (text_le_total text) items
  simpa only [decide_eq_true_eq] using h

private theorem filter_mergeSort_text (items : List α) (s : String) :
    (items.mergeSort fun a b => text a ≤ text b).filter (text · == s) =
      items.filter (text · == s) := by
  have hequal : (items.filter (text · == s)).Pairwise fun a b =>
      decide (text a ≤ text b) = true := by
    apply List.pairwise_of_forall_mem_list
    intro a ha b hb
    have hab : text a = text b := by
      rw [beq_iff_eq.mp (List.mem_filter.mp ha).2, beq_iff_eq.mp (List.mem_filter.mp hb).2]
    rw [decide_eq_true_iff]
    exact hab ▸ String.le_refl (text a)
  have hsub := List.sublist_mergeSort (text_le_trans text) (text_le_total text) hequal
    List.filter_sublist
  have hfilter := hsub.filter (text · == s)
  rw [List.filter_filter] at hfilter
  simp only [Bool.and_self] at hfilter
  have hperm := (List.mergeSort_perm items fun a b => text a ≤ text b).filter (text · == s)
  exact (hfilter.eq_of_length hperm.length_eq.symm).symm

end

section

variable {α β : Type} {entries : List (String × α)} {key : String}

theorem lookup_map_snd (f : α → β) (entries : List (String × α)) (key : String) :
    (entries.map fun entry => (entry.1, f entry.2)).lookup key = (entries.lookup key).map f := by
  induction entries with
  | nil => rfl
  | cons entry entries ih =>
    rw [List.map_cons, List.lookup_cons, List.lookup_cons, ih]
    cases key == entry.1 <;> rfl

theorem lookup_filterMap (value? : String → Option α) {names : List String}
    (h : (value? key).isSome = true → key ∈ names) :
    (names.filterMap fun name => (value? name).map (name, ·)).lookup key = value? key := by
  induction names with
  | nil =>
    cases hvalue : value? key with
    | none => rfl
    | some value => exact absurd (h (by rw [hvalue]; rfl)) List.not_mem_nil
  | cons name names ih =>
    rw [List.filterMap_cons]
    by_cases hname : name = key
    · subst hname
      cases hvalue : value? name with
      | none =>
        rw [hvalue] at ih
        exact ih fun hsome => Bool.noConfusion hsome
      | some value => exact List.lookup_cons_self
    · have hrest := ih fun hsome => (List.mem_cons.mp (h hsome)).resolve_left (Ne.symm hname)
      have hne : (key == name) = false := by simpa using Ne.symm hname
      cases value? name with
      | none => exact hrest
      | some value =>
        rw [Option.map_some]
        dsimp only
        rw [List.lookup_cons, hne]
        exact hrest

private theorem lookup_eq_head?_filter (entries : List (String × α)) (key : String) :
    entries.lookup key = ((entries.filter (·.1 == key)).head?).map (·.2) := by
  induction entries with
  | nil => rfl
  | cons entry entries ih =>
    rw [List.lookup_cons, List.filter_cons, ih]
    by_cases h : key = entry.1
    · rw [beq_iff_eq.mpr h, beq_iff_eq.mpr h.symm]
      rfl
    · have hne : (key == entry.1) = false := by simpa using h
      have hne' : (entry.1 == key) = false := by simpa using Ne.symm h
      rw [hne, hne']
      rfl

theorem lookup_mergeSort (entries : List (String × α)) (key : String) :
    (entries.mergeSort fun a b => a.1 ≤ b.1).lookup key = entries.lookup key := by
  rw [lookup_eq_head?_filter, filter_mergeSort_text Prod.fst, ← lookup_eq_head?_filter]

theorem find?_key_eq_none_iff {p : String → Bool} :
    entries.find? (fun entry => p entry.1) = none ↔
      ∀ key, (entries.lookup key).isSome = true → p key = false := by
  rw [List.find?_eq_none]
  simp only [List.lookup_isSome_iff, beq_iff_eq, Bool.not_eq_true]
  constructor
  · rintro h key ⟨entry, hmem, rfl⟩
    exact h entry hmem
  · exact fun h entry hmem => h entry.1 ⟨entry, hmem, rfl⟩

/-- The first hit among sorted entries is the entry found by the smallest key that is one. -/
theorem find?_key_eq_some_iff (hsorted : entries.Pairwise fun a b => a.1 ≤ b.1)
    {p : String → Bool} {value : α} :
    entries.find? (fun entry => p entry.1) = some (key, value) ↔
      entries.lookup key = some value ∧ p key = true ∧
        ∀ smaller < key, (entries.lookup smaller).isSome = true → p smaller = false := by
  rw [List.find?_eq_some_iff_append]
  simp only [List.lookup_eq_some_iff, List.lookup_isSome_iff, beq_iff_eq, Bool.not_eq_true',
    bne_iff_ne]
  constructor
  · rintro ⟨hp, front, back, rfl, hfront⟩
    refine ⟨⟨front, back, rfl, ?_⟩, hp, ?_⟩
    · rintro other hother rfl
      rw [hfront other hother] at hp
      cases hp
    · rintro smaller hlt ⟨other, hother, rfl⟩
      rcases List.mem_append.mp hother with hother | hother
      · exact hfront other hother
      · -- No key behind the hit is smaller.
        have hle : key ≤ other.1 := by
          rcases List.mem_cons.mp hother with rfl | hback
          · exact String.le_refl _
          · exact List.rel_of_pairwise_cons (List.pairwise_append.mp hsorted).2.1 hback
        exact absurd hlt (String.not_lt.mpr hle)
  · rintro ⟨⟨front, back, rfl, hfront⟩, hp, hsmaller⟩
    refine ⟨hp, front, back, rfl, ?_⟩
    intro other hother
    have hle := (List.pairwise_append.mp hsorted).2.2 other hother _ List.mem_cons_self
    exact hsmaller other.1 (Std.lt_of_le_of_ne hle (hfront other hother).symm)
      ⟨other, List.mem_append_left _ hother, rfl⟩

end

end RepoGraph
