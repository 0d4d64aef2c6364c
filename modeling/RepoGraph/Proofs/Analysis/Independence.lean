import RepoGraph.Proofs.Analysis.View
import RepoGraph.Proofs.Collection.Survey

/-!
# What a view depends on

Two trees with the same clean paths that answer alike about the paths that are not left out have the
same survey, so the same view: the order of a listing, the content of what is left out, the sizes
that are told and the number of readers show nowhere.
-/

namespace RepoGraph

namespace CollectionRules

private theorem quota_subset {rules : CollectionRules} {candidates : List (String × Language)}
    {candidate : String × Language} (h : candidate ∈ rules.quota candidates) :
    candidate ∈ candidates := by
  have hmem := List.mem_of_mem_take h
  split at hmem
  · exact (List.mem_filter.mp hmem).1
  · exact hmem

end CollectionRules

namespace RepoTree

/-- A size that is told for a file is the number of its bytes. -/
def TellsSizes (tree : RepoTree) : Prop :=
  ∀ path bytes, tree.fetch path = .ok bytes →
    tree.size? path = none ∨ tree.size? path = some bytes.size

private theorem TellsSizes.loads_iff {tree : RepoTree} (h : tree.TellsSizes) {limit : Nat}
    {path content : String} :
    tree.Loads limit path content ↔
      ∃ bytes, tree.fetch path = .ok bytes ∧ bytes.size ≤ limit ∧ 0 ∉ bytes.toList.take 8192 ∧
        content = String.ofList (Text.decodeLossy bytes.toList) := by
  refine ⟨And.right, fun hbytes => ⟨?_, hbytes⟩⟩
  obtain ⟨bytes, hfetch, hle, -⟩ := hbytes
  intro size hsize
  rcases h path bytes hfetch with hnone | hsome
  · rw [hnone] at hsize
    cases hsize
  · rw [hsome] at hsize
    cases hsize
    exact hle

variable {a b : RepoTree} {rules : CollectionRules} {listing listing' : List String}

private theorem TellsSizes.loads_congr (ha : a.TellsSizes) (hb : b.TellsSizes) {path : String}
    (h : a.fetch path = b.fetch path) (limit : Nat) (content : String) :
    a.Loads limit path content ↔ b.Loads limit path content := by
  rw [ha.loads_iff, hb.loads_iff, h]

private theorem Eligible.of_firstLine {path : String} {language : Language}
    (h : a.Eligible rules path language) (hline : a.firstLine path = b.firstLine path) :
    b.Eligible rules path language := by
  refine { h with speaks := ?_ }
  rw [← hline]
  exact h.speaks

/-- Two trees answer alike about the paths of a listing that are not left out. -/
def AgreesWith (a b : RepoTree) (rules : CollectionRules) (listing : List String) : Prop :=
  ∀ path, (∃ listed ∈ listing, IsCleanOf listed path) → ¬ rules.LeavesOut path →
    a.fetch path = b.fetch path ∧ a.firstLine path = b.firstLine path

end RepoTree

open RepoTree

/-- The survey of a tree is one of every tree that answers alike. -/
def Survey.transfer {a b : RepoTree} {rules : CollectionRules} {listing listing' : List String}
    (survey : Survey a rules listing)
    (hpaths : ∀ path, (∃ listed ∈ listing, IsCleanOf listed path) ↔
      ∃ listed ∈ listing', IsCleanOf listed path)
    (hagree : a.AgreesWith b rules listing) (ha : a.TellsSizes) (hb : b.TellsSizes) :
    Survey b rules listing' :=
  { survey with
    mem_paths := fun path => (survey.mem_paths path).trans (hpaths path)
    mem_eligible := fun path language => by
      rw [survey.mem_eligible]
      apply and_congr_right
      intro hpath
      have hanswers := hagree path ((survey.mem_paths path).mp hpath)
      exact ⟨fun h => h.of_firstLine (hanswers h.kept).2,
        fun h => h.of_firstLine (hanswers h.kept).2.symm⟩
    mem_files := fun file => by
      rw [survey.mem_files]
      apply and_congr_right
      intro hselected
      obtain ⟨hpath, heligible⟩ :=
        (survey.mem_eligible _ _).mp (CollectionRules.quota_subset hselected)
      have hanswers := hagree file.path ((survey.mem_paths _).mp hpath) heligible.kept
      exact ha.loads_congr hb hanswers.1 _ _
    mem_manifests := fun manifest => by
      rw [survey.mem_manifests]
      apply exists_congr
      intro path
      apply and_congr_right
      intro hpath
      apply and_congr_right
      intro hkept
      have hanswers := hagree path ((survey.mem_paths path).mp hpath) hkept
      simp only [ha.loads_congr hb hanswers.1] }

namespace RepoTree

variable {a b : RepoTree} {rules : CollectionRules} {listing listing' : List String}

private theorem collect_eq_of_agreesWith (hlisting : a.listing = .ok listing)
    (hlisting' : b.listing = .ok listing')
    (hpaths : ∀ path, (∃ listed ∈ listing, IsCleanOf listed path) ↔
      ∃ listed ∈ listing', IsCleanOf listed path)
    (hagree : a.AgreesWith b rules listing) (ha : a.TellsSizes) (hb : b.TellsSizes) :
    a.collect rules = b.collect rules := by
  rw [collect_eq_outcome hlisting (a.survey rules listing),
    collect_eq_outcome hlisting' ((a.survey rules listing).transfer hpaths hagree ha hb)]
  rfl

private theorem error?_fetchConcurrency (options : AnalysisOptions)
    {readers readers' : Option UInt64} (h : readers = some 0 ↔ readers' = some 0) :
    { options with fetchConcurrency := readers }.error? =
      { options with fetchConcurrency := readers' }.error? := by
  simp only [AnalysisOptions.error?, h]

/-- Trees that answer alike about what is not left out have the same view or the same error, and so
the same fingerprint, however many readers there are. -/
theorem view_eq_of_agreesWith {options : AnalysisOptions} {readers readers' : Option UInt64}
    (hlisting : a.listing = .ok listing) (hlisting' : b.listing = .ok listing')
    (hpaths : ∀ path, (∃ listed ∈ listing, IsCleanOf listed path) ↔
      ∃ listed ∈ listing', IsCleanOf listed path)
    (hagree : a.AgreesWith b options.collectionRules listing)
    (ha : a.TellsSizes) (hb : b.TellsSizes) (hreaders : readers = some 0 ↔ readers' = some 0) :
    a.view { options with fetchConcurrency := readers } =
      b.view { options with fetchConcurrency := readers' } := by
  have hcollect : a.collect { options with fetchConcurrency := readers }.collectionRules =
      b.collect { options with fetchConcurrency := readers' }.collectionRules :=
    collect_eq_of_agreesWith hlisting hlisting' hpaths hagree ha hb
  have hgraph : a.graph { options with fetchConcurrency := readers } =
      b.graph { options with fetchConcurrency := readers' } := by
    rw [RepoTree.graph, RepoTree.graph, error?_fetchConcurrency options hreaders, hcollect]
  rw [RepoTree.view, RepoTree.view, hgraph]
  rfl

/-- A tree of an empty file and of one in an excluded directory. -/
def vendorTree (listing : List String) (vendored : ByteArray) (told : Bool) : RepoTree where
  listing := .ok listing
  fetch path := .ok (if path = "vendor/x.js" then vendored else ByteArray.empty)
  firstLine path := .error (.notFound path)
  size? path := if told then some (if path = "vendor/x.js" then vendored else ByteArray.empty).size
    else none

private theorem tellsSizes_vendorTree (listing : List String) (vendored : ByteArray) (told : Bool) :
    (vendorTree listing vendored told).TellsSizes := by
  intro path bytes hfetch
  cases hfetch
  cases told with
  | false => exact Or.inl rfl
  | true => exact Or.inr rfl

private theorem view_of_read {tree : RepoTree} {options : AnalysisOptions} {listing : List String}
    (hvalid : options.error? = none) (hlisting : tree.listing = .ok listing)
    (hread : tree.read options.collectionRules listing ≠ []) :
    ∃ view, tree.view options = .ok view := by
  obtain ⟨collection, hcollect, -⟩ := collect_of_read hlisting hread
  have hgraph : tree.graph options = .ok collection.graph :=
    graph_eq_ok_iff.mpr ⟨hvalid, collection, hcollect, rfl⟩
  exact ⟨_, view_eq_ok_iff.mpr ⟨_, hgraph, rfl⟩⟩

theorem view_eq_of_agreesWith_vendorTree :
    ∃ view, (vendorTree ["b.js", "vendor/x.js"] ByteArray.empty false).view
        { unsampled with fetchConcurrency := none } = .ok view ∧
      (vendorTree ["./vendor/x.js", "b.js", "vendor\\x.js"] ⟨#[0]⟩ true).view
        { unsampled with fetchConcurrency := some 4 } = .ok view := by
  have hb : cleanPath "b.js" = "b.js" := by decide
  have hx : cleanPath "vendor/x.js" = "vendor/x.js" := by decide
  have hdot : cleanPath "./vendor/x.js" = "vendor/x.js" := by decide
  have hslash : cleanPath "vendor\\x.js" = "vendor/x.js" := by decide
  have hpaths : ∀ path, (∃ listed ∈ ["b.js", "vendor/x.js"], IsCleanOf listed path) ↔
      ∃ listed ∈ ["./vendor/x.js", "b.js", "vendor\\x.js"], IsCleanOf listed path := by
    intro path
    simp only [isCleanOf_iff, List.mem_cons, List.not_mem_nil, or_false, exists_eq_or_imp,
      exists_eq_left, hb, hx, hdot, hslash]
    tauto
  have hvendor : unsampled.collectionRules.LeavesOut "vendor/x.js" :=
    Or.inl ⟨"vendor", by decide, by decide⟩
  have hagree : (vendorTree ["b.js", "vendor/x.js"] ByteArray.empty false).AgreesWith
      (vendorTree ["./vendor/x.js", "b.js", "vendor\\x.js"] ⟨#[0]⟩ true)
      unsampled.collectionRules ["b.js", "vendor/x.js"] := by
    intro path _ hkept
    have hne : path ≠ "vendor/x.js" := by
      rintro rfl
      exact hkept hvendor
    exact ⟨by simp [vendorTree, hne], rfl⟩
  have hread : (vendorTree ["b.js", "vendor/x.js"] ByteArray.empty false).read
      unsampled.collectionRules ["b.js", "vendor/x.js"] ≠ [] := by
    have hsorted : ["b.js", "vendor/x.js"].mergeSort = ["b.js", "vendor/x.js"] :=
      List.mergeSort_of_pairwise (by decide)
    have hclean : cleanPaths ["b.js", "vendor/x.js"] = ["b.js", "vendor/x.js"] := by
      rw [cleanPaths, List.map_cons, List.map_cons, List.map_nil, hb, hx, hsorted]
      decide
    rw [read, hclean]
    decide +kernel
  have hvalid : { unsampled with fetchConcurrency := none }.error? = none := by decide
  have hlisting : (vendorTree ["b.js", "vendor/x.js"] ByteArray.empty false).listing =
      .ok ["b.js", "vendor/x.js"] := rfl
  obtain ⟨view, hview⟩ := view_of_read hvalid hlisting hread
  refine ⟨view, hview, ?_⟩
  rw [← hview]
  exact (view_eq_of_agreesWith rfl rfl hpaths hagree (tellsSizes_vendorTree _ _ _)
    (tellsSizes_vendorTree _ _ _) (by decide)).symm

def lostSource : RepoTree := { oneSource with fetch := fun path => .error (.notFound path) }

def deepOptions : AnalysisOptions :=
  { maxFilesPerDir := none, excludePatterns := deepRules.excludePatterns }

private theorem collectionRules_deepOptions : deepOptions.collectionRules = deepRules := by
  have hsize : AnalysisOptions.bytesOfKb deepOptions.maxFileSizeKb = deepRules.maxFileSize := by
    decide
  rw [AnalysisOptions.collectionRules, hsize]
  rfl

private theorem error?_deepOptions : deepOptions.error? = none := by
  have hglobs : firstGlobError? deepOptions.excludePatterns = none := by
    simp [firstGlobError?, deepOptions, deepRules, Glob.parse_nestedPattern, parse_twoStars]
  rw [AnalysisOptions.error?, hglobs]
  rfl

private theorem view_lostSource :
    lostSource.view deepOptions = .error (.collection (.noSupportedSource 1)) := by
  have hread : lostSource.read deepOptions.collectionRules ["b.js"] = [] := by
    rw [List.eq_nil_iff_forall_not_mem]
    intro file hfile
    obtain ⟨-, -, bytes, hfetch, -⟩ := mem_load.mp hfile
    cases hfetch
  have hcollect : lostSource.collect deepOptions.collectionRules =
      .error (.noSupportedSource 1) := by
    rw [collect_of_read_eq_nil rfl hread, cleanPaths_oneSource]
    rfl
  rw [RepoTree.view, RepoTree.graph, error?_deepOptions, hcollect]
  rfl

/-- The number of readers may not be zero, and a file that a valid pattern matches shows in the view
if the patterns cannot be used together. -/
theorem view_depends_on_readers_and_deepRules :
    (∃ view, oneSource.view { unsampled with fetchConcurrency := none } = .ok view ∧
      oneSource.view { unsampled with fetchConcurrency := some 0 } =
        .error (.option .fetchConcurrency)) ∧
    ∃ glob view, "**" ∈ deepOptions.excludePatterns ∧ Glob.parse {} "**" = .ok glob ∧
      (∀ path, glob.isMatch path = true) ∧
      oneSource.listing = lostSource.listing ∧ oneSource.TellsSizes ∧ lostSource.TellsSizes ∧
      oneSource.view deepOptions = .ok view ∧
      lostSource.view deepOptions = .error (.collection (.noSupportedSource 1)) := by
  constructor
  · have hread : oneSource.read unsampled.collectionRules ["b.js"] ≠ [] := by
      rw [read, cleanPaths_oneSource]
      decide +kernel
    have hvalid : { unsampled with fetchConcurrency := none }.error? = none := by decide
    have hlisting : oneSource.listing = .ok ["b.js"] := rfl
    obtain ⟨view, hview⟩ := view_of_read hvalid hlisting hread
    exact ⟨view, hview, rfl⟩
  · obtain ⟨collection, hcollect, -⟩ := collect_oneSource_deepRules
    rw [← collectionRules_deepOptions] at hcollect
    have hgraph : oneSource.graph deepOptions = .ok collection.graph :=
      graph_eq_ok_iff.mpr ⟨error?_deepOptions, collection, hcollect, rfl⟩
    refine ⟨_, _, ?_, parse_twoStars, fun _ => rfl, rfl, ?_, ?_,
      view_eq_ok_iff.mpr ⟨_, hgraph, rfl⟩, view_lostSource⟩
    · simp [deepOptions, deepRules]
    · intro path bytes _
      exact Or.inl rfl
    · intro path bytes _
      exact Or.inl rfl

end RepoTree

end RepoGraph
