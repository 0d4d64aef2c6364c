import RepoGraph.Analysis
import RepoGraph.Proofs.Collection.Paths
import RepoGraph.Proofs.Graph.Build

/-!
# What the graph of a tree depicts

The graph of a tree says of the collected files what their references say: its ids are the paths and
what is pointed at, and its edges count who points at what, nothing more and nothing twice.
-/

namespace RepoGraph

open RepoGraph.Graph

namespace SourceFile

private theorem fromFile_of_mem_references {file : SourceFile} {reference : Reference}
    (h : reference ∈ file.references) : reference.fromFile = file.path := by
  obtain ⟨hit, -, rfl⟩ := List.mem_map.mp h
  rfl

end SourceFile

namespace Collection

def index (collection : Collection) : RepoIndex :=
  .build collection.files collection.manifests

def references (collection : Collection) : List Reference :=
  collection.files.flatMap SourceFile.references

/-- The number of references in the file at a path that point at an id. -/
def referenceCount (collection : Collection) (source target : String) : Nat :=
  ((collection.files.filter (·.path == source)).flatMap SourceFile.references).countP
    fun reference => collection.index.targetId? reference == some target

private theorem graph_eq_ofChanges (collection : Collection) :
    collection.graph =
      .ofChanges (collection.index.history collection.files collection.references) :=
  build_eq_ofChanges collection.index collection.files collection.references

private theorem file_of_mem_references {collection : Collection} {reference : Reference}
    (h : reference ∈ collection.references) :
    ∃ file ∈ collection.files, file.path = reference.fromFile := by
  obtain ⟨file, hfile, hreference⟩ := List.mem_flatMap.mp h
  exact ⟨file, hfile, (SourceFile.fromFile_of_mem_references hreference).symm⟩

private theorem countP_pointsTo_references (index : RepoIndex) (file : SourceFile)
    (source target : String) :
    file.references.countP (index.pointsTo source target) =
      if file.path == source then
        file.references.countP fun reference => index.targetId? reference == some target
      else 0 := by
  split
  · rename_i hpath
    apply List.countP_congr
    intro reference hreference
    rw [RepoIndex.pointsTo, SourceFile.fromFile_of_mem_references hreference, hpath,
      Bool.true_and]
  · rename_i hpath
    apply List.countP_eq_zero.mpr
    intro reference hreference
    rw [RepoIndex.pointsTo, SourceFile.fromFile_of_mem_references hreference,
      (Bool.not_eq_true _).mp hpath, Bool.false_and]
    exact Bool.false_ne_true

private theorem countP_pointsTo (collection : Collection) (source target : String) :
    collection.references.countP (collection.index.pointsTo source target) =
      collection.referenceCount source target := by
  rw [references, referenceCount]
  induction collection.files with
  | nil => rfl
  | cons file files ih =>
    rw [List.flatMap_cons, List.countP_append, ih, countP_pointsTo_references, List.filter_cons]
    split
    · rw [List.flatMap_cons, List.countP_append]
    · rw [Nat.zero_add]

private theorem countAccepted_eq_referenceCount (collection : Collection) {source target : String}
    (hne : source ≠ target) :
    countAccepted (collection.index.history collection.files collection.references) source target =
      collection.referenceCount source target := by
  rw [RepoIndex.countAccepted_history collection.index collection.files collection.references hne,
    countP_pointsTo]

private theorem referenceCount_pos_iff (collection : Collection) (source target : String) :
    0 < collection.referenceCount source target ↔
      ∃ reference ∈ collection.references,
        reference.fromFile = source ∧ collection.index.targetId? reference = some target := by
  rw [← countP_pointsTo, List.countP_pos_iff]
  simp only [RepoIndex.pointsTo, Bool.and_eq_true, beq_iff_eq]

end Collection
/-- A graph shows the files of a collection and where their references point. -/
structure Graph.Depicts (graph : Graph) (collection : Collection) : Prop where
  /-- The ids are the paths of the files and what their references point at. -/
  ids : ∀ id, (∃ node ∈ graph.nodes, node.id = id) ↔
    (∃ file ∈ collection.files, file.path = id) ∨
      ∃ file ∈ collection.files, ∃ reference ∈ file.references,
        collection.index.targetId? reference = some id
  linked : ∀ source target, source ≠ target →
    ((graph.edge? source target).isSome ↔ 0 < collection.referenceCount source target)
  weights : ∀ source target, source ≠ target →
    collection.referenceCount source target < UInt32.size →
      (graph.weight? source target).elim 0 UInt32.toNat = collection.referenceCount source target
  files : ∀ file ∈ collection.files, ∃ node ∈ graph.nodes,
    node.id = file.path ∧ node.kind = .internal ∧ node.details.language = some file.language
  sources : ∀ edge ∈ graph.edges, ∃ file ∈ collection.files, file.path = edge.source
  /-- A package is pointed at and points at nothing. -/
  packages : ∀ node ∈ graph.nodes, node.kind = .external →
    (∃ edge ∈ graph.edges, edge.target = node.id) ∧
      ∀ edge ∈ graph.edges, edge.source ≠ node.id
  /-- A module that is no file is pointed at. -/
  modules : ∀ node ∈ graph.nodes, node.kind = .internal →
    (∀ file ∈ collection.files, file.path ≠ node.id) → ∃ edge ∈ graph.edges, edge.target = node.id

namespace Collection

variable (collection : Collection)

theorem consistent_graph : collection.graph.Consistent := by
  rw [graph_eq_ofChanges]
  exact consistent_ofChanges _

private theorem mem_ids_graph (id : String) :
    (∃ node ∈ collection.graph.nodes, node.id = id) ↔
      (∃ file ∈ collection.files, file.path = id) ∨
        ∃ reference ∈ collection.references,
          collection.index.targetId? reference = some id := by
  rw [← collection.consistent_graph.contains_iff, graph_eq_ofChanges, contains_ofChanges]
  exact collection.index.introduced_history (fun _ => file_of_mem_references) id

private theorem isSome_edge?_graph {source target : String} (hne : source ≠ target) :
    (collection.graph.edge? source target).isSome ↔
      0 < collection.referenceCount source target := by
  rw [graph_eq_ofChanges, isSome_edge?_ofChanges, countAccepted_eq_referenceCount _ hne]

private theorem weight?_graph {source target : String} (hne : source ≠ target)
    (hlt : collection.referenceCount source target < UInt32.size) :
    (collection.graph.weight? source target).elim 0 UInt32.toNat =
      collection.referenceCount source target := by
  rw [← countAccepted_eq_referenceCount collection hne] at hlt ⊢
  rw [graph_eq_ofChanges]
  exact weight?_toNat_ofChanges hlt

private theorem edge_of_reference {reference : Reference} {target : String}
    (hmem : reference ∈ collection.references)
    (htarget : collection.index.targetId? reference = some target)
    (hne : reference.fromFile ≠ target) :
    ∃ edge ∈ collection.graph.edges, edge.target = target := by
  have hpos := (collection.referenceCount_pos_iff reference.fromFile target).mpr
    ⟨reference, hmem, rfl, htarget⟩
  obtain ⟨edge, hedge⟩ := Option.isSome_iff_exists.mp
    ((collection.isSome_edge?_graph hne).mpr hpos)
  obtain ⟨hmem, -, htarget⟩ := collection.consistent_graph.edge?_eq_some_iff.mp hedge
  exact ⟨edge, hmem, htarget⟩

private theorem file_of_edge {edge : Edge} (hedge : edge ∈ collection.graph.edges) :
    ∃ file ∈ collection.files, file.path = edge.source := by
  obtain ⟨hne, -, -⟩ := collection.consistent_graph.joined edge hedge
  have hsome : collection.graph.edge? edge.source edge.target = some edge :=
    collection.consistent_graph.edge?_eq_some_iff.mpr ⟨hedge, rfl, rfl⟩
  have hpos := (collection.isSome_edge?_graph hne).mp (by rw [hsome]; rfl)
  obtain ⟨reference, hmem, hsource, -⟩ := (collection.referenceCount_pos_iff _ _).mp hpos
  rw [← hsource]
  exact file_of_mem_references hmem

private theorem edge_of_not_file {node : Node} (hnode : node ∈ collection.graph.nodes)
    (hfile : ∀ file ∈ collection.files, file.path ≠ node.id) :
    ∃ edge ∈ collection.graph.edges, edge.target = node.id := by
  rcases (collection.mem_ids_graph node.id).mp ⟨node, hnode, rfl⟩ with
    ⟨file, hmem, hpath⟩ | ⟨reference, hmem, htarget⟩
  · exact absurd hpath (hfile file hmem)
  · obtain ⟨file, hmem', hpath⟩ := file_of_mem_references hmem
    apply collection.edge_of_reference hmem htarget
    rw [← hpath]
    exact hfile file hmem'

variable {collection}

private theorem node_of_file (hnodup : (collection.files.map (·.path)).Nodup) {file : SourceFile}
    (hfile : file ∈ collection.files) : ∃ node ∈ collection.graph.nodes,
      node.id = file.path ∧ node.kind = .internal ∧ node.details.language = some file.language := by
  obtain ⟨node, hnode, hkind, hlang⟩ :=
    showsModule_history collection.index collection.references hnodup hfile
  rw [← graph_eq_ofChanges] at hnode
  obtain ⟨hmem, hid⟩ := collection.consistent_graph.node?_eq_some_iff.mp hnode
  exact ⟨node, hmem, hid, hkind, hlang⟩

private theorem path_ne_of_external (hnodup : (collection.files.map (·.path)).Nodup) {node : Node}
    (hnode : node ∈ collection.graph.nodes) (hkind : node.kind = .external) :
    ∀ file ∈ collection.files, file.path ≠ node.id := by
  intro file hfile hpath
  obtain ⟨module, hmem, hid, hinternal, -⟩ := node_of_file hnodup hfile
  -- The node of that id would be the module of the file.
  have heq : module = node :=
    collection.consistent_graph.nodes.eq_of_key_eq hmem hnode (hid.trans hpath)
  rw [heq, hkind] at hinternal
  cases hinternal

private theorem depicts_graph (hnodup : (collection.files.map (·.path)).Nodup) :
    collection.graph.Depicts collection where
  ids id := by
    rw [mem_ids_graph]
    simp only [references, List.mem_flatMap]
    constructor
    · rintro (hfile | ⟨reference, ⟨file, hfile, hmem⟩, htarget⟩)
      · exact Or.inl hfile
      · exact Or.inr ⟨file, hfile, reference, hmem, htarget⟩
    · rintro (hfile | ⟨file, hfile, reference, hmem, htarget⟩)
      · exact Or.inl hfile
      · exact Or.inr ⟨reference, ⟨file, hfile, hmem⟩, htarget⟩
  linked _ _ hne := collection.isSome_edge?_graph hne
  weights _ _ hne hlt := collection.weight?_graph hne hlt
  files _ hfile := node_of_file hnodup hfile
  sources _ hedge := collection.file_of_edge hedge
  packages node hnode hkind := by
    have hfile := path_ne_of_external hnodup hnode hkind
    refine ⟨collection.edge_of_not_file hnode hfile, ?_⟩
    intro edge hedge hsource
    obtain ⟨file, hmem, hpath⟩ := collection.file_of_edge hedge
    exact hfile file hmem (hpath.trans hsource)
  modules _ hnode _ hfile := collection.edge_of_not_file hnode hfile

end Collection

namespace RepoTree

theorem graph_eq_ok_iff {tree : RepoTree} {options : AnalysisOptions} {graph : Graph} :
    tree.graph options = .ok graph ↔
      options.error? = none ∧
        ∃ collection, tree.collect options.collectionRules = .ok collection ∧
          collection.graph = graph := by
  rw [RepoTree.graph]
  cases options.error? with
  | some error => simp
  | none =>
    cases tree.collect options.collectionRules with
    | error error => simp
    | ok collection => simp

/-- Every tree that has a graph has a collection that the graph depicts. -/
theorem graph_depicts_collection {tree : RepoTree} {options : AnalysisOptions} {graph : Graph}
    (h : tree.graph options = .ok graph) :
    ∃ collection, tree.collect options.collectionRules = .ok collection ∧
      graph.WellFormed ∧ graph.Depicts collection := by
  obtain ⟨-, collection, hcollect, rfl⟩ := graph_eq_ok_iff.mp h
  exact ⟨collection, hcollect, collection.consistent_graph.wellFormed,
    Collection.depicts_graph (nodup_files hcollect)⟩

/-- A tree of two files, one of which imports the other. -/
def importTree : RepoTree where
  listing := .ok ["main.py", "util.py"]
  fetch path :=
    .ok ⟨(if path = "main.py" then "import util" else "").toList.toArray.map (·.toNat.toUInt8)⟩
  firstLine path := .error (.notFound path)
  size? _ := none

def unsampled : AnalysisOptions := { maxFilesPerDir := none }

private theorem read_importTree :
    importTree.read unsampled.collectionRules ["main.py", "util.py"] =
      [⟨"main.py", .python, "import util"⟩, ⟨"util.py", .python, ""⟩] := by
  have hclean : ["main.py", "util.py"].map cleanPath = ["main.py", "util.py"] := by decide
  have hsorted : ["main.py", "util.py"].mergeSort = ["main.py", "util.py"] :=
    List.mergeSort_of_pairwise (by decide)
  have hpaths : cleanPaths ["main.py", "util.py"] = ["main.py", "util.py"] := by
    rw [cleanPaths, hclean, hsorted]
    decide
  have hcandidates : importTree.candidates unsampled.collectionRules ["main.py", "util.py"] =
      [("main.py", .python), ("util.py", .python)] := by decide
  rw [read, hpaths, hcandidates]
  decide +kernel

theorem graph_importTree :
    ∃ collection, importTree.collect unsampled.collectionRules = .ok collection ∧
      importTree.graph unsampled = .ok collection.graph ∧
      collection.files = [⟨"main.py", .python, "import util"⟩, ⟨"util.py", .python, ""⟩] := by
  have hlisting : importTree.listing = .ok ["main.py", "util.py"] := rfl
  have hread : importTree.read unsampled.collectionRules ["main.py", "util.py"] ≠ [] := by
    rw [read_importTree]
    exact List.cons_ne_nil _ _
  obtain ⟨collection, hcollect, hfiles⟩ := collect_of_read hlisting hread
  refine ⟨collection, hcollect, ?_, hfiles.trans read_importTree⟩
  exact graph_eq_ok_iff.mpr ⟨by decide, collection, hcollect, rfl⟩

theorem graph_depicts_collection_importTree :
    ∃ graph, importTree.graph unsampled = .ok graph ∧
      ∃ node ∈ graph.nodes, node.id = "main.py" ∧ node.details.language = some .python := by
  obtain ⟨collection, hcollect, hgraph, hfiles⟩ := graph_importTree
  obtain ⟨depicted, hdepicted, -, hdepicts⟩ := graph_depicts_collection hgraph
  rw [hcollect] at hdepicted
  cases hdepicted
  obtain ⟨node, hnode, hid, -, hlang⟩ :=
    hdepicts.files ⟨"main.py", .python, "import util"⟩ (by rw [hfiles]; exact List.mem_cons_self)
  exact ⟨collection.graph, hgraph, node, hnode, hid, hlang⟩

end RepoTree

end RepoGraph
