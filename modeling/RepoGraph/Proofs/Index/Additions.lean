import Mathlib.Data.List.Induction
import Mathlib.Data.List.Sort
import RepoGraph.Proofs.Index.Build

/-!
# Indexes and what was added to them

An index is what a run of additions made of the empty one. The files it finds, its Go modules and
the manifests it keeps for a directory are those that were added, each kept in its order.
-/

namespace RepoGraph

section Insertion

variable {α : Type} {before : α → α → Bool} {a : α} {list : List α}

private theorem insertOrdered_eq_orderedInsert (before : α → α → Bool) (a : α) (list : List α) :
    insertOrdered before a list = list.orderedInsert (fun x y => before x y = true) a := by
  induction list with
  | nil => rfl
  | cons b rest ih => rw [insertOrdered, List.orderedInsert, ih]

private theorem insertOrdered_perm (before : α → α → Bool) (a : α) (list : List α) :
    (insertOrdered before a list).Perm (a :: list) := by
  rw [insertOrdered_eq_orderedInsert]
  exact List.perm_orderedInsert _ a list

private theorem pairwise_not_before_insertOrdered
    (hasymm : ∀ x y, before x y = true → before y x = false)
    (htrans : ∀ x y z, before x y = true → before y z = true → before x z = true)
    (h : list.Pairwise fun x y => before y x = false) :
    (insertOrdered before a list).Pairwise fun x y => before y x = false := by
  induction list with
  | nil => exact List.pairwise_singleton _ _
  | cons b rest ih =>
    obtain ⟨hb, hrest⟩ := List.pairwise_cons.mp h
    rw [insertOrdered]
    split
    · rename_i hab
      refine List.pairwise_cons.mpr ⟨?_, h⟩
      intro x hx
      rcases List.mem_cons.mp hx with rfl | hx
      · exact hasymm a x hab
      · rw [← Bool.not_eq_true]
        intro hxa
        have hxb := htrans x a b hxa hab
        rw [hb x hx] at hxb
        cases hxb
    · rename_i hab
      refine List.pairwise_cons.mpr ⟨?_, ih hrest⟩
      intro x hx
      rcases mem_insertOrdered.mp hx with rfl | hx
      · exact Bool.eq_false_of_not_eq_true hab
      · exact hb x hx

theorem filter_insertOrdered_of_neg {p : α → Bool} (h : p a = false) :
    (insertOrdered before a list).filter p = list.filter p := by
  induction list with
  | nil => rw [insertOrdered, List.filter_cons_of_neg (by simp [h])]
  | cons b rest ih =>
    rw [insertOrdered]
    split
    · rw [List.filter_cons_of_neg (by simp [h])]
    · rw [List.filter_cons, List.filter_cons, ih]

end Insertion

namespace RepoIndex

variable {index : RepoIndex}

/-- What can be added to an index. -/
inductive Addition where
  | file (path : String) (language : Language)
  | declared (name : String) (language : Language)
  | manifest (manifest : Manifest)

namespace Addition

def path? : Addition → Option String
  | file path _ => some path
  | _ => none

def manifest? : Addition → Option Manifest
  | manifest added => some added
  | _ => none

end Addition

def add (index : RepoIndex) : Addition → RepoIndex
  | .file path language => index.addFile path language
  | .declared name language => index.addNamespace name language
  | .manifest manifest => index.addManifest manifest

/-- The index that a run of additions makes of the empty one. -/
def ofAdditions (additions : List Addition) : RepoIndex := additions.foldl add {}

def addedPaths (additions : List Addition) : List String := additions.filterMap Addition.path?

def addedManifests (additions : List Addition) : List Manifest :=
  additions.filterMap Addition.manifest?

theorem ofAdditions_concat (additions : List Addition) (addition : Addition) :
    ofAdditions (additions ++ [addition]) = (ofAdditions additions).add addition := by
  rw [ofAdditions, List.foldl_append]
  rfl

/-- Every index that can be built is what a run of additions makes. -/
theorem reachable_iff : index.Reachable ↔ ∃ additions, ofAdditions additions = index := by
  constructor
  · intro h
    induction h with
    | empty => exact ⟨[], rfl⟩
    | addFile path language _ ih =>
      obtain ⟨additions, rfl⟩ := ih
      exact ⟨additions ++ [.file path language], ofAdditions_concat _ _⟩
    | addNamespace name language _ ih =>
      obtain ⟨additions, rfl⟩ := ih
      exact ⟨additions ++ [.declared name language], ofAdditions_concat _ _⟩
    | addManifest manifest _ ih =>
      obtain ⟨additions, rfl⟩ := ih
      exact ⟨additions ++ [.manifest manifest], ofAdditions_concat _ _⟩
  · rintro ⟨additions, rfl⟩
    induction additions using List.reverseRecOn with
    | nil => exact .empty
    | append_singleton additions addition ih =>
      rw [ofAdditions_concat]
      cases addition with
      | file path language => exact ih.addFile path language
      | declared name language => exact ih.addNamespace name language
      | manifest manifest => exact ih.addManifest manifest

theorem reachable_ofAdditions (additions : List Addition) : (ofAdditions additions).Reachable :=
  reachable_iff.mpr ⟨additions, rfl⟩

theorem mem_addedPaths_iff {additions : List Addition} {path : String} :
    path ∈ addedPaths additions ↔ ∃ language, .file path language ∈ additions := by
  rw [addedPaths, List.mem_filterMap]
  constructor
  · rintro ⟨addition, hmem, hpath⟩
    cases addition with
    | file added language =>
      obtain rfl := Option.some.inj hpath
      exact ⟨language, hmem⟩
    | declared name language => cases hpath
    | manifest manifest => cases hpath
  · rintro ⟨language, hmem⟩
    exact ⟨_, hmem, rfl⟩

theorem contains_ofAdditions {additions : List Addition} {path : String} :
    (ofAdditions additions).contains path = true ↔ path ∈ addedPaths additions := by
  induction additions using List.reverseRecOn with
  | nil => simp [ofAdditions, contains, addedPaths]
  | append_singleton additions addition ih =>
    rw [ofAdditions_concat, addedPaths, List.filterMap_append, List.mem_append, ← addedPaths, ← ih]
    cases addition with
    | file added language =>
      have hnew : [Addition.file added language].filterMap Addition.path? = [added] := rfl
      rw [add, contains_addFile, Bool.or_eq_true, beq_iff_eq, hnew, List.mem_singleton, or_comm,
        @eq_comm _ added path]
    | declared name language => simp [add, addNamespace, contains, Addition.path?]
    | manifest manifest => simp [add, contains, files_addManifest, Addition.path?]

section Ordered

variable {α : Type} (list : RepoIndex → List α) {taken : Addition → Option α}
  {before : α → α → Bool} (hempty : list {} = [])
  (hadd : ∀ index addition, list (index.add addition) =
    (taken addition).elim (list index) fun a => insertOrdered before a (list index))
include hempty hadd

private theorem perm_filterMap_of_insertOrdered (additions : List Addition) :
    (list (ofAdditions additions)).Perm (additions.filterMap taken) := by
  induction additions using List.reverseRecOn with
  | nil => exact hempty ▸ .nil
  | append_singleton additions addition ih =>
    rw [ofAdditions_concat, hadd, List.filterMap_append]
    cases htaken : taken addition with
    | none => simpa [htaken] using ih
    | some a =>
      have hnew : [addition].filterMap taken = [a] := by simp [htaken]
      rw [hnew]
      calc insertOrdered before a (list (ofAdditions additions))
        _ |>.Perm (a :: list (ofAdditions additions)) := insertOrdered_perm _ _ _
        _ |>.Perm (a :: additions.filterMap taken) := ih.cons a
        _ |>.Perm (additions.filterMap taken ++ [a]) := (List.perm_append_singleton _ _).symm

theorem pairwise_not_before_ofAdditions
    (hasymm : ∀ x y, before x y = true → before y x = false)
    (htrans : ∀ x y z, before x y = true → before y z = true → before x z = true)
    (additions : List Addition) :
    (list (ofAdditions additions)).Pairwise fun x y => before y x = false := by
  induction additions using List.reverseRecOn with
  | nil => exact hempty ▸ .nil
  | append_singleton additions addition ih =>
    rw [ofAdditions_concat, hadd]
    cases taken addition with
    | none => exact ih
    | some a => exact pairwise_not_before_insertOrdered hasymm htrans ih

end Ordered

theorem manifests_addManifest (index : RepoIndex) (manifest : Manifest) (dir : String) :
    (index.addManifest manifest).manifests.getD dir [] =
      if manifest.dir = dir then
        insertOrdered (fun a b => a.path < b.path) manifest (index.manifests.getD dir [])
      else index.manifests.getD dir [] := by
  have hmanifests : (index.addManifest manifest).manifests =
      index.manifests.insert manifest.dir (insertOrdered (fun a b => a.path < b.path) manifest
        (index.manifests.getD manifest.dir [])) := by
    rw [addManifest]
    split <;> rfl
  rw [hmanifests, Std.HashMap.getD_insert]
  by_cases hdir : manifest.dir = dir
  · rw [if_pos (beq_iff_eq.mpr hdir), if_pos hdir, hdir]
  · rw [if_neg (by simpa using hdir), if_neg hdir]

private theorem manifests_add (dir : String) (index : RepoIndex) (addition : Addition) :
    (index.add addition).manifests.getD dir [] =
      (addition.manifest?.filter (·.dir = dir)).elim (index.manifests.getD dir [])
        fun manifest => insertOrdered (fun a b => a.path < b.path) manifest
          (index.manifests.getD dir []) := by
  cases addition with
  | file path language => rfl
  | declared name language => rfl
  | manifest manifest =>
    rw [add, manifests_addManifest, Addition.manifest?]
    by_cases hdir : manifest.dir = dir
    · rw [if_pos hdir, Option.filter_some_pos (by simpa using hdir)]
      rfl
    · rw [if_neg hdir, Option.filter_some_neg (by simpa using hdir)]
      rfl

theorem manifests_ofAdditions_perm (additions : List Addition) (dir : String) :
    ((ofAdditions additions).manifests.getD dir []).Perm
      ((addedManifests additions).filter (·.dir = dir)) := by
  have hperm := perm_filterMap_of_insertOrdered
    (fun index => index.manifests.getD dir []) (by simp) (manifests_add dir) additions
  have htaken : additions.filterMap (fun addition => addition.manifest?.filter (·.dir = dir)) =
      (addedManifests additions).filter (·.dir = dir) := by
    rw [addedManifests, List.filter_filterMap]
  exact htaken ▸ hperm

theorem manifests_ofAdditions_pairwise (additions : List Addition) (dir : String) :
    ((ofAdditions additions).manifests.getD dir []).Pairwise fun a b => ¬ b.path < a.path := by
  have hpairwise := pairwise_not_before_ofAdditions
    (fun index => index.manifests.getD dir []) (by simp) (manifests_add dir)
    (by simpa using fun x y => String.lt_asymm) (by simpa using fun x y z => String.lt_trans)
    additions
  simpa using hpairwise

theorem goModules_add (index : RepoIndex) (addition : Addition) :
    (index.add addition).goModules = (addition.manifest?.bind moduleOf?).elim index.goModules
      fun module => insertOrdered GoModule.precedes module index.goModules := by
  cases addition with
  | file path language => rfl
  | declared name language => rfl
  | manifest manifest =>
    rw [add, addManifest, Addition.manifest?, Option.bind_some]
    cases moduleOf? manifest with
    | none => rfl
    | some module => rfl

/-- The Go modules of an index are those that the added manifests declare. -/
theorem goModules_ofAdditions_perm (additions : List Addition) :
    (ofAdditions additions).goModules.Perm ((addedManifests additions).filterMap moduleOf?) := by
  have hperm := perm_filterMap_of_insertOrdered goModules rfl goModules_add additions
  rwa [addedManifests, List.filterMap_filterMap]

end RepoIndex

end RepoGraph
