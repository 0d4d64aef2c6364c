import RepoGraph.Collection.Basic
import RepoGraph.Proofs.Text.Sorting

/-!
# The paths of a collection

The clean paths of a listing come strictly in order, and each step from them to the collected files
only leaves paths out. So the files of a collection have different paths, in order.
-/

namespace RepoGraph

theorem pairwise_lt_cleanPaths (listing : List String) :
    (cleanPaths listing).Pairwise (· < ·) :=
  pairwise_lt_eraseReps (pairwise_mergeSort_text id (listing.map cleanPath))

theorem map_filterMap_sublist {α β : Type} {f : α → Option β} {key : α → String}
    {key' : β → String} (h : ∀ a b, f a = some b → key' b = key a) (items : List α) :
    ((items.filterMap f).map key').Sublist (items.map key) := by
  induction items with
  | nil => exact List.Sublist.refl _
  | cons a items ih =>
    rw [List.filterMap_cons]
    cases hfound : f a with
    | none => exact ih.cons (key a)
    | some b =>
      rw [List.map_cons, List.map_cons, h a b hfound]
      exact ih.cons_cons (key a)

private theorem sampleFrom_sublist (cap : Nat) (counts : Std.HashMap String Nat)
    (candidates : List (String × Language)) :
    (sampleFrom cap counts candidates).Sublist candidates := by
  induction candidates generalizing counts with
  | nil => exact List.Sublist.refl _
  | cons candidate rest ih =>
    unfold sampleFrom
    dsimp only
    split
    · exact (ih _).cons_cons candidate
    · exact (ih _).cons candidate

private theorem CollectionRules.select_sublist (rules : CollectionRules)
    (candidates : List (String × Language)) : (rules.select candidates).Sublist candidates := by
  unfold CollectionRules.select
  apply (List.take_sublist _ _).trans
  split
  · exact sampleFrom_sublist _ _ candidates
  · exact List.Sublist.refl _

namespace RepoTree

/-- The paths that may be collected, with their languages. -/
def candidates (tree : RepoTree) (rules : CollectionRules) (paths : List String) :
    List (String × Language) :=
  ((paths.filter fun path => !rules.excludes rules.globs path).filter mayBeSource).filterMap
    fun path => (tree.language? path).map (path, ·)

def load (tree : RepoTree) (rules : CollectionRules) (selected : List (String × Language)) :
    List SourceFile :=
  selected.filterMap fun (path, language) =>
    ((tree.text rules.maxFileSize.toNat path).toOption).map fun content =>
      (⟨path, language, content⟩ : SourceFile)

def read (tree : RepoTree) (rules : CollectionRules) (listing : List String) : List SourceFile :=
  tree.load rules (rules.select (tree.candidates rules (cleanPaths listing)))

theorem candidates_paths_sublist (tree : RepoTree) (rules : CollectionRules)
    (paths : List String) : ((tree.candidates rules paths).map (·.1)).Sublist paths := by
  have hpath : ∀ path (candidate : String × Language),
      (tree.language? path).map (path, ·) = some candidate → candidate.1 = id path := by
    intro path candidate hcandidate
    obtain ⟨language, -, rfl⟩ := Option.map_eq_some_iff.mp hcandidate
    rfl
  have hkeep := map_filterMap_sublist hpath
    ((paths.filter fun path => !rules.excludes rules.globs path).filter mayBeSource)
  rw [List.map_id] at hkeep
  exact hkeep.trans (List.filter_sublist.trans List.filter_sublist)

theorem load_paths_sublist (tree : RepoTree) (rules : CollectionRules)
    (selected : List (String × Language)) :
    ((tree.load rules selected).map (·.path)).Sublist (selected.map (·.1)) := by
  apply map_filterMap_sublist
  rintro ⟨path, language⟩ file hfile
  obtain ⟨content, -, rfl⟩ := Option.map_eq_some_iff.mp hfile
  rfl

private theorem files_of_collect {tree : RepoTree} {rules : CollectionRules}
    {collection : Collection} (h : tree.collect rules = .ok collection) :
    ∃ listing, tree.listing = .ok listing ∧ collection.files = tree.read rules listing := by
  unfold collect at h
  cases hlisting : tree.listing with
  | error error =>
    rw [hlisting] at h
    cases h
  | ok listing =>
    refine ⟨listing, rfl, ?_⟩
    rw [hlisting] at h
    change (if _ then _ else _) = _ at h
    split at h
    · cases h
    · cases h
      rfl

theorem collect_of_read {tree : RepoTree} {rules : CollectionRules} {listing : List String}
    (hlisting : tree.listing = .ok listing) (hread : tree.read rules listing ≠ []) :
    ∃ collection, tree.collect rules = .ok collection ∧
      collection.files = tree.read rules listing := by
  cases hcollect : tree.collect rules with
  | ok collection =>
    obtain ⟨listed, hlisted, hfiles⟩ := files_of_collect hcollect
    rw [hlisting] at hlisted
    cases hlisted
    exact ⟨collection, rfl, hfiles⟩
  | error error =>
    unfold collect at hcollect
    rw [hlisting] at hcollect
    change (if _ then _ else _) = _ at hcollect
    split at hcollect
    · rename_i hempty
      exact absurd (List.isEmpty_iff.mp hempty) hread
    · cases hcollect

theorem read_paths_sublist (tree : RepoTree) (rules : CollectionRules) (listing : List String) :
    ((tree.read rules listing).map (·.path)).Sublist (cleanPaths listing) := by
  have hload := tree.load_paths_sublist rules
    (rules.select (tree.candidates rules (cleanPaths listing)))
  have hselect := (rules.select_sublist (tree.candidates rules (cleanPaths listing))).map (·.1)
  have hcandidates := tree.candidates_paths_sublist rules (cleanPaths listing)
  exact hload.trans (hselect.trans hcandidates)

private theorem pairwise_lt_files {tree : RepoTree} {rules : CollectionRules}
    {collection : Collection} (h : tree.collect rules = .ok collection) :
    (collection.files.map (·.path)).Pairwise (· < ·) := by
  obtain ⟨listing, -, hfiles⟩ := files_of_collect h
  rw [hfiles]
  exact List.Pairwise.sublist (tree.read_paths_sublist rules listing)
    (pairwise_lt_cleanPaths listing)

theorem nodup_files {tree : RepoTree} {rules : CollectionRules} {collection : Collection}
    (h : tree.collect rules = .ok collection) : (collection.files.map (·.path)).Nodup :=
  (pairwise_lt_files h).imp String.ne_of_lt

end RepoTree

end RepoGraph
