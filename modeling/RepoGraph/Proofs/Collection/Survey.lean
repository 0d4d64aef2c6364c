import RepoGraph.Proofs.Collection.Selection
import RepoGraph.Proofs.Glob.Nesting
import RepoGraph.Proofs.Manifest.Declarations

/-!
# What a collection consists of

A survey of a tree says which paths there are, which are eligible, and which files and manifests are
loaded. It leaves no choice, and the collection is what it comes to.
-/

namespace RepoGraph

open Text

/-- Paths come strictly in the order of their bytes. -/
def Ascends (paths : List String) : Prop := paths.Pairwise fun a b => bytes a < bytes b

private theorem ascends_of_pairwise {paths : List String} (h : paths.Pairwise (· < ·)) :
    Ascends paths :=
  h.imp lt_iff_bytes_lt.mp

/-- A list in order is known from its members. -/
theorem eq_of_ascends {α : Type} (key : α → String) {xs ys : List α}
    (hx : Ascends (xs.map key)) (hy : Ascends (ys.map key)) (h : ∀ a, a ∈ xs ↔ a ∈ ys) :
    xs = ys := by
  rw [Ascends, List.pairwise_map] at hx hy
  have hnodup : ∀ {zs : List α}, zs.Pairwise (fun a b => bytes (key a) < bytes (key b)) →
      zs.Nodup := by
    intro zs hz
    refine hz.imp ?_
    rintro a b hlt rfl
    exact List.lt_irrefl _ hlt
  have hperm : xs.Perm ys := (List.perm_ext_iff_of_nodup (hnodup hx) (hnodup hy)).mpr h
  apply hperm.eq_of_pairwise ?_ hx hy
  intro a b _ _ hab hba
  exact absurd hba (List.lt_asymm hab)

namespace RepoTree

/-- A file has a text: neither the size that the tree tells nor the number of its bytes is above the
limit, no zero is among the first bytes, and the text is what the bytes are in UTF-8. -/
def Loads (tree : RepoTree) (limit : Nat) (path content : String) : Prop :=
  (∀ size, tree.size? path = some size → size ≤ limit) ∧
    ∃ bytes, tree.fetch path = .ok bytes ∧ bytes.size ≤ limit ∧ 0 ∉ bytes.toList.take 8192 ∧
      content = String.ofList (decodeLossy bytes.toList)

private theorem text_of_fetch {tree : RepoTree} {limit : Nat} {path : String} {bytes : ByteArray}
    (hsize : (tree.size? path).filter (limit < ·) = none) (hfetch : tree.fetch path = .ok bytes) :
    tree.text limit path =
      if limit < bytes.size then .error (.tooLarge path bytes.size limit)
      else if (bytes.toList.take sniffLength).contains 0 then .error (.binary path)
      else .ok (String.ofList (decodeLossy bytes.toList)) := by
  rw [text, hsize, hfetch]
  simp only [bind, Except.bind, throw, throwThe, MonadExceptOf.throw, pure, Except.pure]

private theorem text_eq_ok_iff {tree : RepoTree} {limit : Nat} {path content : String} :
    tree.text limit path = .ok content ↔ tree.Loads limit path content := by
  cases hsize : (tree.size? path).filter (limit < ·) with
  | some size =>
    obtain ⟨hsome, hlarge⟩ := Option.filter_eq_some_iff.mp hsize
    rw [text, hsize]
    constructor
    · intro h
      cases h
    · rintro ⟨hle, -⟩
      exact absurd (hle size hsome) (by simpa using hlarge)
  | none =>
    have hle : ∀ size, tree.size? path = some size → size ≤ limit := by
      intro size hsome
      simpa using Option.filter_eq_none_iff.mp hsize size hsome
    rw [Loads, and_iff_right hle]
    cases hfetch : tree.fetch path with
    | error error =>
      rw [text, hsize, hfetch]
      constructor
      · intro h
        cases h
      · rintro ⟨bytes, hbytes, -⟩
        cases hbytes
    | ok bytes =>
      rw [text_of_fetch hsize hfetch]
      simp only [Except.ok.injEq, exists_eq_left', ← Nat.not_lt, List.contains_iff_mem,
        sniffLength]
      by_cases hlarge : limit < bytes.size
      · simp [hlarge]
      · by_cases hzero : 0 ∈ bytes.toList.take 8192
        · simp [hlarge, hzero]
        · simp [hlarge, hzero, eq_comm]

def manifests (tree : RepoTree) (rules : CollectionRules) (paths : List String) : List Manifest :=
  ((paths.filter fun path => !rules.excludes rules.globs path).filter isManifestPath).filterMap
    fun path => ((tree.text rules.maxFileSize.toNat path).toOption).bind fun content =>
      (Manifest.parse path content).toOption

theorem mem_manifests {tree : RepoTree} {rules : CollectionRules} {paths : List String}
    {manifest : Manifest} :
    manifest ∈ tree.manifests rules paths ↔
      ∃ path ∈ paths, ¬ rules.LeavesOut path ∧
        ManifestKind.ofFileName? (Path.fileName path) ≠ none ∧
        ∃ content, tree.Loads rules.maxFileSize.toNat path content ∧
          Manifest.parse path content = .ok manifest := by
  simp only [manifests, List.mem_filterMap, List.mem_filter, Bool.not_eq_true',
    ← Bool.not_eq_true, CollectionRules.excludes_iff, isManifestPath, Option.isSome_iff_ne_none,
    Option.bind_eq_some_iff, toOption_eq_some_iff, text_eq_ok_iff, and_assoc]

private theorem manifests_paths_sublist (tree : RepoTree) (rules : CollectionRules)
    (paths : List String) : ((tree.manifests rules paths).map (·.path)).Sublist paths := by
  have hpath : ∀ path (manifest : Manifest),
      ((tree.text rules.maxFileSize.toNat path).toOption).bind (fun content =>
        (Manifest.parse path content).toOption) = some manifest → manifest.path = id path := by
    intro path manifest hmanifest
    obtain ⟨content, -, hparse⟩ := Option.bind_eq_some_iff.mp hmanifest
    obtain ⟨kind, -, hat⟩ := Manifest.isAt_of_parse (toOption_eq_some_iff.mp hparse)
    exact hat.path_eq
  have hkeep := map_filterMap_sublist hpath
    ((paths.filter fun path => !rules.excludes rules.globs path).filter isManifestPath)
  rw [List.map_id] at hkeep
  exact hkeep.trans (List.filter_sublist.trans List.filter_sublist)

theorem mem_load {tree : RepoTree} {rules : CollectionRules}
    {selected : List (String × Language)} {file : SourceFile} :
    file ∈ tree.load rules selected ↔ (file.path, file.language) ∈ selected ∧
      tree.Loads rules.maxFileSize.toNat file.path file.content := by
  simp only [load, List.mem_filterMap, Option.map_eq_some_iff, toOption_eq_some_iff,
    text_eq_ok_iff]
  constructor
  · rintro ⟨⟨path, language⟩, hmem, content, hloads, rfl⟩
    exact ⟨hmem, hloads⟩
  · rintro ⟨hmem, hloads⟩
    exact ⟨(file.path, file.language), hmem, file.content, hloads, rfl⟩

end RepoTree

/-- What there is in a tree under some rules, each list in the order of the paths. -/
structure Survey (tree : RepoTree) (rules : CollectionRules) (listing : List String) where
  paths : List String
  /-- The eligible paths with their languages. -/
  eligible : List (String × Language)
  files : List SourceFile
  manifests : List Manifest
  /-- The number of selected paths that were not loaded. -/
  skipped : Nat
  paths_ascend : Ascends paths
  mem_paths : ∀ path, path ∈ paths ↔ ∃ listed ∈ listing, IsCleanOf listed path
  eligible_ascend : Ascends (eligible.map (·.1))
  mem_eligible : ∀ path language, (path, language) ∈ eligible ↔
    path ∈ paths ∧ tree.Eligible rules path language
  files_ascend : Ascends (files.map (·.path))
  mem_files : ∀ file, file ∈ files ↔ (file.path, file.language) ∈ rules.quota eligible ∧
    tree.Loads rules.maxFileSize.toNat file.path file.content
  manifests_ascend : Ascends (manifests.map (·.path))
  mem_manifests : ∀ manifest, manifest ∈ manifests ↔
    ∃ path ∈ paths, ¬ rules.LeavesOut path ∧
      ManifestKind.ofFileName? (Path.fileName path) ≠ none ∧
      ∃ content, tree.Loads rules.maxFileSize.toNat path content ∧
        Manifest.parse path content = .ok manifest
  skipped_add_files : skipped + files.length = (rules.quota eligible).length

namespace Survey

variable {tree : RepoTree} {rules : CollectionRules} {listing : List String}

/-- What a survey comes to: a collection, or an error if no file was loaded. -/
def outcome (survey : Survey tree rules listing) : Except CollectionError Collection :=
  if survey.files.isEmpty then .error (.noSupportedSource survey.paths.length)
  else .ok ⟨survey.files, survey.manifests, survey.paths.length, survey.skipped⟩

/-- A survey leaves no choice. -/
theorem outcome_eq (survey other : Survey tree rules listing) :
    survey.outcome = other.outcome := by
  have hpaths : survey.paths = other.paths := by
    apply eq_of_ascends id
    · rw [List.map_id]
      exact survey.paths_ascend
    · rw [List.map_id]
      exact other.paths_ascend
    · intro path
      rw [survey.mem_paths, other.mem_paths]
  have heligible : survey.eligible = other.eligible := by
    apply eq_of_ascends (·.1) survey.eligible_ascend other.eligible_ascend
    intro (path, language)
    rw [survey.mem_eligible, other.mem_eligible, hpaths]
  have hfiles : survey.files = other.files := by
    apply eq_of_ascends (·.path) survey.files_ascend other.files_ascend
    intro file
    rw [survey.mem_files, other.mem_files, heligible]
  have hmanifests : survey.manifests = other.manifests := by
    apply eq_of_ascends (·.path) survey.manifests_ascend other.manifests_ascend
    intro manifest
    rw [survey.mem_manifests, other.mem_manifests, hpaths]
  have hskipped : survey.skipped = other.skipped := by
    have h := survey.skipped_add_files
    rw [hfiles, heligible, ← other.skipped_add_files] at h
    exact Nat.add_right_cancel h
  rw [outcome, outcome, hpaths, hfiles, hmanifests, hskipped]

end Survey

namespace RepoTree

theorem pairwise_lt_candidates (tree : RepoTree) (rules : CollectionRules)
    (listing : List String) :
    ((tree.candidates rules (cleanPaths listing)).map (·.1)).Pairwise (· < ·) :=
  (pairwise_lt_cleanPaths listing).sublist (tree.candidates_paths_sublist rules _)

def survey (tree : RepoTree) (rules : CollectionRules) (listing : List String) :
    Survey tree rules listing where
  paths := cleanPaths listing
  eligible := tree.candidates rules (cleanPaths listing)
  files := tree.read rules listing
  manifests := tree.manifests rules (cleanPaths listing)
  skipped := (rules.select (tree.candidates rules (cleanPaths listing))).length -
    (tree.read rules listing).length
  paths_ascend := ascends_of_pairwise (pairwise_lt_cleanPaths listing)
  mem_paths _ := mem_cleanPaths
  eligible_ascend := ascends_of_pairwise (tree.pairwise_lt_candidates rules listing)
  mem_eligible _ _ := mem_candidates
  files_ascend := ascends_of_pairwise
    ((pairwise_lt_cleanPaths listing).sublist (tree.read_paths_sublist rules listing))
  mem_files file := by
    rw [← rules.select_eq_quota (tree.pairwise_lt_candidates rules listing)]
    exact mem_load
  manifests_ascend := ascends_of_pairwise
    ((pairwise_lt_cleanPaths listing).sublist (tree.manifests_paths_sublist rules _))
  mem_manifests _ := mem_manifests
  skipped_add_files := by
    have hle := (tree.load_paths_sublist rules
      (rules.select (tree.candidates rules (cleanPaths listing)))).length_le
    rw [List.length_map, List.length_map] at hle
    rw [← rules.select_eq_quota (tree.pairwise_lt_candidates rules listing), read]
    omega

theorem collect_eq_outcome {tree : RepoTree} {rules : CollectionRules} {listing : List String}
    (h : tree.listing = .ok listing) (survey : Survey tree rules listing) :
    tree.collect rules = survey.outcome := by
  rw [survey.outcome_eq (tree.survey rules listing)]
  unfold collect
  rw [h]
  rfl

/-- The collection of a tree is what any survey of it comes to, and there is one. -/
theorem collect_follows_survey {tree : RepoTree} {rules : CollectionRules}
    {listing : List String} (h : tree.listing = .ok listing) :
    Nonempty (Survey tree rules listing) ∧
      ∀ survey : Survey tree rules listing, tree.collect rules = survey.outcome :=
  ⟨⟨tree.survey rules listing⟩, collect_eq_outcome h⟩

def gappedListing : List String :=
  ["./lib/a.js", "lib\\b.js", "lib/c.js", "main.py", "src/d.js", "src/requirements.txt"]

/-- A tree of three directories. One source in `lib` cannot be read. -/
def gappedTree : RepoTree where
  listing := .ok gappedListing
  fetch path := if path = "lib/b.js" then .error (.notFound path) else .ok ByteArray.empty
  firstLine path := .error (.notFound path)
  size? _ := none

def twoOfEachDir : CollectionRules := { maxFilesPerDir := some 2 }

private theorem cleanPaths_gappedListing :
    cleanPaths gappedListing =
      ["lib/a.js", "lib/b.js", "lib/c.js", "main.py", "src/d.js", "src/requirements.txt"] := by
  have hclean : gappedListing.map cleanPath =
      ["lib/a.js", "lib/b.js", "lib/c.js", "main.py", "src/d.js", "src/requirements.txt"] := by
    decide
  rw [cleanPaths, hclean, List.mergeSort_of_pairwise (by decide)]
  decide

theorem candidates_gappedTree :
    gappedTree.candidates twoOfEachDir (cleanPaths gappedListing) =
      [("lib/a.js", .javaScript), ("lib/b.js", .javaScript), ("lib/c.js", .javaScript),
        ("main.py", .python), ("src/d.js", .javaScript)] := by
  rw [cleanPaths_gappedListing]
  decide +kernel

/-- Of five sources one is above the bound of its directory and one of the others is skipped. -/
theorem collect_follows_survey_gappedTree :
    gappedTree.listing = .ok gappedListing ∧
      ∃ survey : Survey gappedTree twoOfEachDir gappedListing,
        gappedTree.collect twoOfEachDir = survey.outcome ∧
          survey.eligible.length = 5 ∧ survey.skipped = 1 ∧
          survey.files = [⟨"lib/a.js", .javaScript, ""⟩, ⟨"main.py", .python, ""⟩,
            ⟨"src/d.js", .javaScript, ""⟩] ∧
          survey.manifests.map (·.path) = ["src/requirements.txt"] := by
  refine ⟨rfl, gappedTree.survey _ _, (collect_follows_survey rfl).2 _, ?_⟩
  have hselect :=
    twoOfEachDir.select_eq_quota (gappedTree.pairwise_lt_candidates twoOfEachDir gappedListing)
  simp only [survey, read]
  rw [hselect, candidates_gappedTree, cleanPaths_gappedListing]
  decide +kernel

def oneSource : RepoTree where
  listing := .ok ["b.js"]
  fetch _ := .ok ByteArray.empty
  firstLine path := .error (.notFound path)
  size? _ := none

def wholeDirs : CollectionRules := { maxFilesPerDir := none }

theorem cleanPaths_oneSource : cleanPaths ["b.js"] = ["b.js"] := by
  have hclean : ["b.js"].map cleanPath = ["b.js"] := by decide
  rw [cleanPaths, hclean, List.mergeSort_singleton]
  rfl

/-- Rules with a pattern that matches every path, beside one that is nested too deep. -/
def deepRules : CollectionRules where
  maxFilesPerDir := none
  excludePatterns := [String.ofList (nestedPattern 300), "**"]

theorem parse_twoStars : Glob.parse {} "**" = .ok ⟨{}, [.leadingDirs]⟩ := by
  have hrest : GlobReading.rest {} {} ['*', '*'] = .ok [.leadingDirs] := by
    rw [GlobReading.rest]
    change GlobReading.rest {} { current := [.leadingDirs], before := some '*' } [] = _
    rw [GlobReading.rest]
    rfl
  have htext : "**".toList = ['*', '*'] := rfl
  rw [Glob.parse, htext, hrest]

private theorem globs_deepRules : deepRules.globs = [] := by
  have hmem : Glob.nested 300 ∈ deepRules.validGlobs := by
    rw [CollectionRules.mem_validGlobs]
    exact ⟨_, List.mem_cons_self, Glob.parse_nestedPattern 300⟩
  change (if Glob.areUsable deepRules.validGlobs then deepRules.validGlobs else []) = []
  rw [Glob.not_areUsable_nested (by decide) hmem]
  rfl

theorem collect_oneSource_deepRules :
    ∃ collection, oneSource.collect deepRules = .ok collection ∧
      collection.files = [⟨"b.js", .javaScript, ""⟩] := by
  have hcandidates : oneSource.candidates deepRules ["b.js"] = [("b.js", .javaScript)] := by
    rw [candidates, globs_deepRules]
    rfl
  have hread : oneSource.read deepRules ["b.js"] = [⟨"b.js", .javaScript, ""⟩] := by
    rw [read, cleanPaths_oneSource, hcandidates]
    decide +kernel
  have hlisting : oneSource.listing = .ok ["b.js"] := rfl
  have hne : oneSource.read deepRules ["b.js"] ≠ [] := by
    rw [hread]
    exact List.cons_ne_nil _ _
  obtain ⟨collection, hcollect, hfiles⟩ := collect_of_read hlisting hne
  exact ⟨collection, hcollect, hfiles.trans hread⟩

theorem collect_of_read_eq_nil {tree : RepoTree} {rules : CollectionRules}
    {listing : List String} (h : tree.listing = .ok listing)
    (hread : tree.read rules listing = []) :
    tree.collect rules = .error (.noSupportedSource (cleanPaths listing).length) := by
  rw [collect_eq_outcome h (tree.survey rules listing)]
  change (if (tree.read rules listing).isEmpty then _ else _) = _
  rw [hread]
  rfl

/-- The tree of the empty file, with a size above the limit told for it. -/
def misSized : RepoTree := { oneSource with size? := fun _ => some 2000000 }

private theorem candidates_misSized :
    misSized.candidates wholeDirs ["b.js"] = [("b.js", .javaScript)] := by
  decide

/-- A path that a valid pattern matches is collected if the patterns cannot be used together, and a
file that is not too large is not loaded if its size is told wrong. -/
theorem collect_deepRules_misSized :
    (∃ glob collection, "**" ∈ deepRules.excludePatterns ∧ Glob.parse {} "**" = .ok glob ∧
      glob.isMatch "b.js" = true ∧ oneSource.collect deepRules = .ok collection ∧
      "b.js" ∈ collection.files.map (·.path)) ∧
    ∃ bytes, misSized.Eligible wholeDirs "b.js" .javaScript ∧
      misSized.fetch "b.js" = .ok bytes ∧ bytes.size ≤ wholeDirs.maxFileSize.toNat ∧
      0 ∉ bytes.toList.take 8192 ∧ misSized.collect wholeDirs = .error (.noSupportedSource 1) := by
  constructor
  · obtain ⟨collection, hcollect, hfiles⟩ := collect_oneSource_deepRules
    refine ⟨_, collection, by simp [deepRules], parse_twoStars, rfl, hcollect, ?_⟩
    rw [hfiles]
    exact List.mem_cons_self
  · have hmem : ("b.js", Language.javaScript) ∈ misSized.candidates wholeDirs ["b.js"] := by
      rw [candidates_misSized]
      exact List.mem_cons_self
    refine ⟨ByteArray.empty, (mem_candidates.mp hmem).2, rfl, by decide, by simp, ?_⟩
    have hread : misSized.read wholeDirs ["b.js"] = [] := by
      rw [read, cleanPaths_oneSource, candidates_misSized]
      decide
    rw [collect_of_read_eq_nil rfl hread, cleanPaths_oneSource]
    rfl

end RepoTree

end RepoGraph
