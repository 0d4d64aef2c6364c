import RepoGraph.Proofs.Collection.Survey

/-!
# A larger number of files

The bound on the number of files cuts off a list that does not depend on it: the candidates that are
left of each directory. So under a larger bound the same files come first, and whatever else is
collected stays as it was.
-/

namespace RepoGraph

namespace CollectionRules

/-- The candidates that are left of each directory, before the number of files cuts them off. -/
def sampled (rules : CollectionRules) (candidates : List (String × Language)) :
    List (String × Language) :=
  match rules.maxFilesPerDir with
  | some cap => sampleFrom cap.toNat {} candidates
  | none => candidates

def withMaxFiles (rules : CollectionRules) (maxFiles : UInt64) : CollectionRules :=
  { rules with maxFiles }

private theorem select_withMaxFiles (rules : CollectionRules) (maxFiles : UInt64)
    (candidates : List (String × Language)) :
    (rules.withMaxFiles maxFiles).select candidates =
      (rules.sampled candidates).take maxFiles.toNat := rfl

private theorem select_isPrefix (rules : CollectionRules) {n m : UInt64} (hle : n ≤ m)
    (candidates : List (String × Language)) :
    (rules.withMaxFiles n).select candidates <+: (rules.withMaxFiles m).select candidates := by
  rw [select_withMaxFiles, select_withMaxFiles]
  exact List.take_prefix_take_left (UInt64.le_iff_toNat_le.mp hle)

end CollectionRules

namespace RepoTree

def unread (tree : RepoTree) (rules : CollectionRules) (selected : List (String × Language)) :
    Nat :=
  selected.length - (tree.load rules selected).length

private theorem load_isPrefix (tree : RepoTree) (rules : CollectionRules)
    {selected selected' : List (String × Language)} (h : selected <+: selected') :
    tree.load rules selected <+: tree.load rules selected' :=
  h.filterMap _

private theorem unread_le_of_isPrefix (tree : RepoTree) (rules : CollectionRules)
    {selected selected' : List (String × Language)} (h : selected <+: selected') :
    tree.unread rules selected ≤ tree.unread rules selected' := by
  obtain ⟨rest, rfl⟩ := h
  have happend : tree.load rules (selected ++ rest) =
      tree.load rules selected ++ tree.load rules rest := List.filterMap_append
  have hrest : (tree.load rules rest).length ≤ rest.length := List.length_filterMap_le _ _
  rw [unread, unread, happend, List.length_append, List.length_append]
  omega

/-- What a tree is collected to, if any of the selected files can be read. -/
theorem collect_eq_ok_iff {tree : RepoTree} {rules : CollectionRules} {collection : Collection} :
    tree.collect rules = .ok collection ↔ ∃ listing, tree.listing = .ok listing ∧
      tree.read rules listing ≠ [] ∧
      collection = ⟨tree.read rules listing, tree.manifests rules (cleanPaths listing),
        (cleanPaths listing).length,
        tree.unread rules (rules.select (tree.candidates rules (cleanPaths listing)))⟩ := by
  cases hlisting : tree.listing with
  | error error =>
    have hcollect : tree.collect rules = .error error := by
      rw [collect, hlisting]
      rfl
    rw [hcollect]
    simp
  | ok listing =>
    rw [collect_eq_outcome hlisting (tree.survey rules listing)]
    change (if (tree.read rules listing).isEmpty then _ else _) = _ ↔ _
    by_cases hread : tree.read rules listing = []
    · simp [hread]
    · rw [if_neg (by simpa using hread), Except.ok.injEq]
      constructor
      · rintro rfl
        exact ⟨listing, rfl, hread, rfl⟩
      · rintro ⟨listed, hlisted, -, rfl⟩
        cases hlisted
        rfl

/-- A tree that can be collected can be collected under a larger bound on the number of files: the
files come first among those of the larger bound, no fewer are skipped, and the manifests and the
number of listed paths are the same. -/
theorem collect_mono_maxFiles {tree : RepoTree} {rules : CollectionRules} {n m : UInt64}
    (hle : n ≤ m) {collection : Collection}
    (h : tree.collect { rules with maxFiles := n } = .ok collection) :
    ∃ larger, tree.collect { rules with maxFiles := m } = .ok larger ∧
      collection.files <+: larger.files ∧ collection.skipped ≤ larger.skipped ∧
      larger.manifests = collection.manifests ∧ larger.listed = collection.listed := by
  obtain ⟨listing, hlisting, hread, rfl⟩ := collect_eq_ok_iff.mp h
  -- The candidates are the same under both bounds.
  have hselect := rules.select_isPrefix hle (tree.candidates rules (cleanPaths listing))
  have hfiles : tree.read (rules.withMaxFiles n) listing <+:
      tree.read (rules.withMaxFiles m) listing := tree.load_isPrefix rules hselect
  have hread' : tree.read (rules.withMaxFiles m) listing ≠ [] := by
    intro hnil
    rw [hnil, List.prefix_nil] at hfiles
    exact hread hfiles
  exact ⟨_, collect_eq_ok_iff.mpr ⟨listing, hlisting, hread', rfl⟩, hfiles,
    tree.unread_le_of_isPrefix rules hselect, rfl, rfl⟩

private theorem select_gappedTree (maxFiles : UInt64) :
    (twoOfEachDir.withMaxFiles maxFiles).select
        (gappedTree.candidates (twoOfEachDir.withMaxFiles maxFiles) (cleanPaths gappedListing)) =
      ([("lib/a.js", .javaScript), ("lib/b.js", .javaScript), ("main.py", .python),
        ("src/d.js", .javaScript)] : List (String × Language)).take maxFiles.toNat := by
  have hcandidates :
      gappedTree.candidates (twoOfEachDir.withMaxFiles maxFiles) (cleanPaths gappedListing) =
        gappedTree.candidates twoOfEachDir (cleanPaths gappedListing) := rfl
  rw [CollectionRules.select_eq_quota _ (gappedTree.pairwise_lt_candidates _ gappedListing),
    hcandidates, candidates_gappedTree]
  change (firstOfEachDir 2 _).take maxFiles.toNat = _
  refine congrArg (List.take maxFiles.toNat) ?_
  decide

/-- Two files of each directory are taken. A bound of one file collects the first of them, and a
bound of three files skips the second. -/
theorem collect_mono_maxFiles_gappedTree :
    (1 : UInt64) ≤ 3 ∧
      ∃ collection larger,
        gappedTree.collect { twoOfEachDir with maxFiles := 1 } = .ok collection ∧
        gappedTree.collect { twoOfEachDir with maxFiles := 3 } = .ok larger ∧
        collection.files = [⟨"lib/a.js", .javaScript, ""⟩] ∧ collection.skipped = 0 ∧
        larger.skipped = 1 ∧ collection.files <+: larger.files := by
  have hle : (1 : UInt64) ≤ 3 := by decide
  have hfirst : gappedTree.read (twoOfEachDir.withMaxFiles 1) gappedListing =
      [⟨"lib/a.js", .javaScript, ""⟩] := by
    change gappedTree.load twoOfEachDir ((twoOfEachDir.withMaxFiles 1).select _) = _
    rw [select_gappedTree]
    decide +kernel
  have hread : gappedTree.read (twoOfEachDir.withMaxFiles 1) gappedListing ≠ [] := by
    rw [hfirst]
    exact List.cons_ne_nil _ _
  have hcollect := collect_eq_ok_iff.mpr ⟨_, rfl, hread, rfl⟩
  obtain ⟨larger, hlarger, hfiles, -⟩ := collect_mono_maxFiles hle hcollect
  refine ⟨hle, _, larger, hcollect, hlarger, hfirst, ?_, ?_, hfiles⟩
  · change gappedTree.unread twoOfEachDir ((twoOfEachDir.withMaxFiles 1).select _) = 0
    rw [select_gappedTree]
    decide +kernel
  · obtain ⟨listing, hlisting, -, rfl⟩ := collect_eq_ok_iff.mp hlarger
    cases hlisting
    change gappedTree.unread twoOfEachDir ((twoOfEachDir.withMaxFiles 3).select
      (gappedTree.candidates (twoOfEachDir.withMaxFiles 3) (cleanPaths gappedListing))) = 1
    rw [select_gappedTree]
    decide +kernel

end RepoTree

end RepoGraph
