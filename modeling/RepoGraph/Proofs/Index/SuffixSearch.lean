import Mathlib.Data.List.Dedup
import RepoGraph.Proofs.Collection.Survey
import RepoGraph.Proofs.Index.Additions
import RepoGraph.Proofs.Resolve.QualifiedNames

/-!
# Searching files by suffix

An index looks for a suffix among the files of one name. What it finds is what a scan over all added
paths finds, from the first one in byte order on. So neither the order of the additions nor their
number shows.
-/

namespace RepoGraph.RepoIndex

open Text

variable {additions order : List Addition} {path suffix : String}

/-- The paths that were added, each once, by their bytes. -/
def pathsInOrder (additions : List Addition) : List String :=
  (addedPaths additions).dedup.mergeSort fun a b => decide (bytes a ≤ bytes b)

/-- The first of some paths that is a suffix itself, or ends in it behind a slash. -/
def scan? (suffix : String) (paths : List String) : Option String :=
  paths.find? fun path => path = suffix ∨ '/' :: suffix.toList <:+ path.toList

private theorem mem_pathsInOrder : path ∈ pathsInOrder additions ↔ path ∈ addedPaths additions := by
  rw [pathsInOrder, (List.mergeSort_perm _ _).mem_iff, List.mem_dedup]

private theorem ascends_pathsInOrder (additions : List Addition) :
    Ascends (pathsInOrder additions) := by
  have hsorted : (pathsInOrder additions).Pairwise fun a b => bytes a ≤ bytes b := by
    have htrans : ∀ a b c : String, decide (bytes a ≤ bytes b) = true →
        decide (bytes b ≤ bytes c) = true → decide (bytes a ≤ bytes c) = true := by
      simpa using fun a b c => List.le_trans
    have htotal : ∀ a b : String,
        (decide (bytes a ≤ bytes b) || decide (bytes b ≤ bytes a)) = true := by
      simpa using fun a b => List.le_total _ _
    simpa [pathsInOrder] using List.pairwise_mergeSort htrans htotal (addedPaths additions).dedup
  have hnodup : (pathsInOrder additions).Nodup :=
    (List.mergeSort_perm _ _).nodup_iff.mpr (List.nodup_dedup _)
  refine (hsorted.and hnodup).imp ?_
  rintro a b ⟨hle, hne⟩
  rw [← lt_iff_bytes_lt]
  apply Std.lt_of_le_of_ne ?_ hne
  rw [← String.not_lt, lt_iff_bytes_lt]
  exact List.not_lt.mpr hle

private theorem endsAt_iff :
    EndsAt suffix path ↔ path = suffix ∨ '/' :: suffix.toList <:+ path.toList := by
  rw [← isPathSuffix_iff, isPathSuffix, Bool.or_eq_true, beq_iff_eq, endsWith_iff]

private theorem scan?_pathsInOrder_eq_some_iff :
    scan? suffix (pathsInOrder additions) = some path ↔
      (ofAdditions additions).IsFirstAt suffix path := by
  rw [scan?, find?_eq_some_iff_of_pairwise (fun _ _ => List.lt_asymm)
    (ascends_pathsInOrder additions)]
  simp only [mem_pathsInOrder, ← endsAt_iff, ← contains_ofAdditions, decide_eq_true_eq,
    decide_eq_false_iff_not]
  constructor
  · rintro ⟨hcontains, hends, hnone⟩
    refine ⟨hcontains, hends, ?_⟩
    intro other hother hendsOther hne
    rw [← lt_iff_bytes_lt]
    apply Std.lt_of_le_of_ne ?_ (Ne.symm hne)
    rw [← String.not_lt, lt_iff_bytes_lt]
    exact fun hlt => hnone other hother hlt hendsOther
  · rintro ⟨hcontains, hends, hfirst⟩
    refine ⟨hcontains, hends, ?_⟩
    intro other hother hlt hendsOther
    have hne : other ≠ path := by
      rintro rfl
      exact List.lt_irrefl _ hlt
    exact List.lt_asymm hlt (hfirst other hother hendsOther hne)

private theorem findBySuffix?_eq_scan? (additions : List Addition) (suffix : String) :
    (ofAdditions additions).findBySuffix? suffix =
      scan? (String.ofList (suffix.toList.dropWhile (· == '/'))) (pathsInOrder additions) := by
  apply Option.ext
  intro path
  rw [(reachable_ofAdditions additions).findBySuffix?_eq_some_iff, scan?_pathsInOrder_eq_some_iff]

private theorem pathsInOrder_eq
    (h : ∀ path, path ∈ addedPaths order ↔ path ∈ addedPaths additions) :
    pathsInOrder order = pathsInOrder additions := by
  apply eq_of_ascends id
  · rw [List.map_id]
    exact ascends_pathsInOrder order
  · rw [List.map_id]
    exact ascends_pathsInOrder additions
  · intro path
    rw [mem_pathsInOrder, mem_pathsInOrder, h]

/-- The table of names is exact: the index holds the added paths, a search by suffix finds what a
scan over them finds, and the order of the additions makes no difference. -/
theorem findBySuffix?_exact (additions : List Addition) :
    (∀ path, (ofAdditions additions).contains path = true ↔
      ∃ language, .file path language ∈ additions) ∧
    (∀ suffix, (ofAdditions additions).findBySuffix? suffix =
      scan? (String.ofList (suffix.toList.dropWhile (· == '/'))) (pathsInOrder additions)) ∧
    ∀ order : List Addition, order.Perm additions → ∀ text,
      (ofAdditions order).contains text = (ofAdditions additions).contains text ∧
      (ofAdditions order).findBySuffix? text = (ofAdditions additions).findBySuffix? text := by
  refine ⟨fun path => contains_ofAdditions.trans mem_addedPaths_iff,
    findBySuffix?_eq_scan? additions, ?_⟩
  intro order horder text
  have hpaths : ∀ path, path ∈ addedPaths order ↔ path ∈ addedPaths additions := fun path =>
    (horder.filterMap Addition.path?).mem_iff
  constructor
  · rw [Bool.eq_iff_iff, contains_ofAdditions, contains_ofAdditions, hpaths]
  · rw [findBySuffix?_eq_scan?, findBySuffix?_eq_scan?, pathsInOrder_eq hpaths]

/-- Two classes of one name and a class that ends in it, added twice with a new language. -/
theorem findBySuffix?_exact_namesakes :
    let additions : List Addition := [.file "src/xacme/Foo.java" .java, .file "b/acme/Foo.java" .java,
      .file "a/acme/Foo.java" .java, .file "b/acme/Foo.java" .kotlin]
    additions.reverse.Perm additions ∧
      (ofAdditions additions.reverse).findBySuffix? "/acme/Foo.java" = some "a/acme/Foo.java" := by
  intro additions
  have hexact := findBySuffix?_exact additions
  have horder : additions.reverse.Perm additions := List.reverse_perm additions
  refine ⟨horder, ?_⟩
  have hfirst : (ofAdditions additions).IsFirstAt "acme/Foo.java" "a/acme/Foo.java" := by
    refine ⟨contains_ofAdditions.mpr (by decide), Or.inr ⟨"a", by decide⟩, ?_⟩
    intro other hother hends hne
    rw [contains_ofAdditions] at hother
    rw [endsAt_iff] at hends
    rw [← lt_iff_bytes_lt]
    revert other
    decide
  have hsuffix : String.ofList ("/acme/Foo.java".toList.dropWhile (· == '/')) = "acme/Foo.java" := by
    decide
  rw [(hexact.2.2 _ horder _).2, hexact.2.1, hsuffix, scan?_pathsInOrder_eq_some_iff]
  exact hfirst

end RepoGraph.RepoIndex
