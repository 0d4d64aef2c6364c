import RepoGraph.Proofs.Graph.Build
import RepoGraph.Proofs.Resolve.TargetIds
import RepoGraph.Proofs.View.Selection

/-!
# References in another order

The ids and edges of a built graph are the same for every order of the references. A node is what
the nodes brought in with its id make together, and of that only the kind and the language can
depend on the order: they are those of the first one. So the nodes are the same for every order
exactly if the references agree about them at every id that is no file.
-/

namespace RepoGraph

open RepoGraph.Graph

theorem findSome?_cons_eq_or {α β : Type} (f : α → Option β) (a : α) (items : List α) :
    (a :: items).findSome? f = (f a).or (items.findSome? f) := by
  rw [List.findSome?_cons]
  cases f a <;> rfl

private theorem findSome?_perm {α β : Type} {f : α → Option β} {items items' : List α}
    (h : items.Perm items')
    (hagree : ∀ a ∈ items, ∀ b ∈ items, ∀ x y, f a = some x → f b = some y → x = y) :
    items.findSome? f = items'.findSome? f := by
  cases hx : items.findSome? f with
  | none =>
    rw [List.findSome?_eq_none_iff] at hx
    rw [eq_comm, List.findSome?_eq_none_iff]
    intro a ha
    exact hx a (h.mem_iff.mpr ha)
  | some x =>
    obtain ⟨a, ha, hax⟩ := List.exists_of_findSome?_eq_some hx
    cases hy : items'.findSome? f with
    | none =>
      rw [List.findSome?_eq_none_iff] at hy
      rw [hy a (h.mem_iff.mp ha)] at hax
      cases hax
    | some y =>
      obtain ⟨b, hb, hby⟩ := List.exists_of_findSome?_eq_some hy
      rw [hagree a ha b (h.mem_iff.mpr hb) x y hax hby]

namespace NodeDetails

private theorem smallerVersion_right_comm (a b c : Option String) :
    smallerVersion (smallerVersion a b) c = smallerVersion (smallerVersion a c) b := by
  cases a <;> cases b <;> cases c <;>
    simp only [smallerVersion, Option.or_none, Option.none_or, Option.some.injEq] <;> grind

/-- Merging the details of several nodes takes the first of what is known and the smallest version. -/
theorem foldl_merge (nodes : List Node) (start : NodeDetails) :
    nodes.foldl (fun known node => known.merge node.details) start =
      { language := start.language.or (nodes.findSome? (·.details.language))
        packageManager := start.packageManager.or (nodes.findSome? (·.details.packageManager))
        packageName := start.packageName.or (nodes.findSome? (·.details.packageName))
        packageVersion := nodes.foldl
          (fun version node => smallerVersion version node.details.packageVersion)
          start.packageVersion } := by
  induction nodes generalizing start with
  | nil => simp
  | cons node nodes ih =>
    rw [List.foldl_cons, ih, List.foldl_cons]
    simp only [merge, findSome?_cons_eq_or, Option.or_assoc]

end NodeDetails

namespace Graph

def Change.node? : Change → Option Node
  | upsert node => some node
  | reference _ _ => none

/-- What the nodes of one id, in the order in which they come, make of the node that is known. -/
def absorbAll (known : Option Node) (nodes : List Node) : Option Node :=
  nodes.foldl (fun known node => some (absorb node known)) known

private theorem node?_foldl {graph : Graph} (h : graph.Consistent) (changes : List Change)
    (id : String) :
    (changes.foldl apply graph).node? id =
      absorbAll (graph.node? id) ((changes.filterMap Change.node?).filter (·.id == id)) := by
  induction changes generalizing graph with
  | nil => rfl
  | cons change changes ih =>
    rw [List.foldl_cons, ih (h.apply change)]
    cases change with
    | reference source target =>
      rw [apply, node?_addReference]
      rfl
    | upsert node =>
      rw [apply, node?_upsert h, List.filterMap_cons_some (by rfl : Change.node? _ = some node),
        List.filter_cons]
      by_cases hid : node.id = id
      · subst hid
        rw [if_pos rfl, if_pos (beq_self_eq_true _)]
        rfl
      · rw [if_neg hid, if_neg (by simpa using hid)]

private theorem node?_ofChanges (changes : List Change) (id : String) :
    (ofChanges changes).node? id =
      absorbAll none ((changes.filterMap Change.node?).filter (·.id == id)) := by
  have hnone : ({} : Graph).node? id = none := by simp [node?]
  rw [ofChanges, node?_foldl consistent_empty, hnone]

private theorem absorbAll_some (known : Node) (nodes : List Node) :
    absorbAll (some known) nodes =
      some { known with
        details := nodes.foldl (fun details node => details.merge node.details) known.details } := by
  induction nodes generalizing known with
  | nil => rfl
  | cons node nodes ih => exact ih _

/-- The first node gives its label and kind, and all of them what they know. -/
theorem absorbAll_none (nodes : List Node) :
    absorbAll none nodes = nodes.head?.map fun first =>
      { first with details :=
          { language := nodes.findSome? (·.details.language)
            packageManager := nodes.findSome? (·.details.packageManager)
            packageName := nodes.findSome? (·.details.packageName)
            packageVersion := nodes.foldl
              (fun version node => NodeDetails.smallerVersion version node.details.packageVersion)
              none } } := by
  cases nodes with
  | nil => rfl
  | cons first nodes =>
    have hversion : NodeDetails.smallerVersion none first.details.packageVersion =
        first.details.packageVersion := rfl
    change absorbAll (some first) nodes = _
    rw [absorbAll_some, NodeDetails.foldl_merge, List.head?_cons, Option.map_some,
      List.foldl_cons, hversion]
    simp only [findSome?_cons_eq_or]

end Graph

/-- A node as a builder brings it in: a module with a language, or a package of an ecosystem. -/
inductive Node.IsBuilt : Node → Prop
  | module (id : String) (language : Language) : IsBuilt (.internal id (some language))
  | package (ecosystem : Ecosystem) (package : String) (version : Option String) :
    IsBuilt (.external (ecosystem.packageId package) package
      { language := some ecosystem.language
        packageManager := ecosystem.packageManager?
        packageName := some package
        packageVersion := version })

namespace Node.IsBuilt

variable {a b : Node}

theorem isSome_language (h : a.IsBuilt) : a.details.language.isSome := by
  cases h <;> rfl

theorem label_eq (ha : a.IsBuilt) (hb : b.IsBuilt) (hid : a.id = b.id) (hkind : a.kind = b.kind) :
    a.label = b.label := by
  cases ha with
  | module id language =>
    cases hb with
    | module id' language' => exact hid
    | package ecosystem' package' version' => cases hkind
  | package ecosystem package version =>
    cases hb with
    | module id' language' => cases hkind
    | package ecosystem' package' version' => exact (Ecosystem.packageId_inj.mp hid).2

private theorem package_eq (ha : a.IsBuilt) (hb : b.IsBuilt) (hid : a.id = b.id) :
    (∀ x y, a.details.packageManager = some x → b.details.packageManager = some y → x = y) ∧
      ∀ x y, a.details.packageName = some x → b.details.packageName = some y → x = y := by
  cases ha with
  | module id language => exact ⟨fun _ _ hx => (by cases hx), fun _ _ hx => (by cases hx)⟩
  | package ecosystem package version =>
    cases hb with
    | module id' language' => exact ⟨fun _ _ _ hy => (by cases hy), fun _ _ _ hy => (by cases hy)⟩
    | package ecosystem' package' version' =>
      obtain ⟨rfl, rfl⟩ := Ecosystem.packageId_inj.mp hid
      constructor
      · intro x y hx hy
        exact Option.some.inj (hx.symm.trans hy)
      · intro x y hx hy
        exact Option.some.inj (hx.symm.trans hy)

end Node.IsBuilt

/-- The order of the nodes of one id matters only by the kind and the language of the first. -/
theorem Graph.absorbAll_perm {nodes nodes' : List Node} (h : nodes.Perm nodes')
    (hbuilt : ∀ node ∈ nodes, node.IsBuilt)
    (hids : ∀ a ∈ nodes, ∀ b ∈ nodes, a.id = b.id)
    (hfirst : ∀ a ∈ nodes.head?, ∀ b ∈ nodes'.head?,
      a.kind = b.kind ∧ a.details.language = b.details.language) :
    absorbAll none nodes = absorbAll none nodes' := by
  cases nodes with
  | nil => rw [h.nil_eq]
  | cons a rest =>
    cases nodes' with
    | nil => exact absurd h.length_eq (by simp)
    | cons b rest' =>
      have ha := hbuilt a List.mem_cons_self
      have hbmem : b ∈ a :: rest := h.mem_iff.mpr List.mem_cons_self
      have hid := hids a List.mem_cons_self b hbmem
      obtain ⟨hkind, hlanguage⟩ := hfirst a rfl b rfl
      have hknown : ∀ {c : Node}, c.IsBuilt → ∀ others : List Node,
          (c :: others).findSome? (·.details.language) = c.details.language := by
        intro c hc others
        obtain ⟨language, hl⟩ := Option.isSome_iff_exists.mp hc.isSome_language
        rw [findSome?_cons_eq_or, hl, Option.some_or]
      have hmanager := findSome?_perm h (f := (·.details.packageManager)) fun c hc d hd =>
        ((hbuilt c hc).package_eq (hbuilt d hd) (hids c hc d hd)).1
      have hname := findSome?_perm h (f := (·.details.packageName)) fun c hc d hd =>
        ((hbuilt c hc).package_eq (hbuilt d hd) (hids c hc d hd)).2
      have hversion := h.foldl_eq'
        (f := fun version node => NodeDetails.smallerVersion version node.details.packageVersion)
        (fun _ _ _ _ _ => NodeDetails.smallerVersion_right_comm _ _ _) none
      rw [absorbAll_none, absorbAll_none, hmanager, hname, hversion, hknown ha,
        hknown (hbuilt b hbmem), List.head?_cons, List.head?_cons, Option.map_some, Option.map_some,
        hid, ha.label_eq (hbuilt b hbmem) hid hkind, hkind, hlanguage]

namespace RepoIndex

/-- The nodes with an id that a reference brings in, in order. -/
def nodesAt (index : RepoIndex) (id : String) (reference : Reference) : List Node :=
  ((index.changes reference).filterMap Change.node?).filter (·.id == id)

/-- References agree about an id: the first node that one of them brings in with it has the kind and
the language of the first node that any other one brings in with it. -/
def AgreeAt (index : RepoIndex) (references : List Reference) (id : String) : Prop :=
  ∀ reference ∈ references, ∀ other ∈ references,
    ∀ a ∈ (index.nodesAt id reference).head?, ∀ b ∈ (index.nodesAt id other).head?,
      a.kind = b.kind ∧ a.details.language = b.details.language

private theorem isBuilt_targetNode (index : RepoIndex) (file : String) (target : Target) :
    (index.targetNode file target).IsBuilt := by
  cases target with
  | internal id language => exact .module id language
  | external ecosystem package language => exact .package ecosystem package _

theorem exists_target_of_mem_nodesAt {index : RepoIndex} {id : String} {reference : Reference}
    {node : Node} (h : node ∈ index.nodesAt id reference) :
    ∃ target, index.resolve? reference = some target ∧
      ((∃ language, node = .internal reference.fromFile (some language)) ∨
        node = index.targetNode reference.fromFile target) := by
  have hmem := (List.mem_filter.mp h).1
  cases htarget : index.resolve? reference with
  | none =>
    rw [changes_of_dropped htarget] at hmem
    exact absurd hmem List.not_mem_nil
  | some target =>
    obtain ⟨language, hchanges⟩ := changes_of_resolve? htarget
    rw [hchanges] at hmem
    refine ⟨target, rfl, ?_⟩
    rcases List.mem_cons.mp hmem with hfile | hmem
    · exact Or.inl ⟨language, hfile⟩
    · exact Or.inr (List.mem_singleton.mp hmem)

private theorem isBuilt_of_mem_nodesAt {index : RepoIndex} {id : String} {reference : Reference}
    {node : Node} (h : node ∈ index.nodesAt id reference) : node.IsBuilt := by
  obtain ⟨target, -, ⟨language, rfl⟩ | rfl⟩ := exists_target_of_mem_nodesAt h
  · exact .module _ _
  · exact index.isBuilt_targetNode _ _

end RepoIndex

namespace GraphBuilder

def Step.nodesAt (index : RepoIndex) (id : String) (told : Step) : List Node :=
  ((told.changes index).filterMap Change.node?).filter (·.id == id)

theorem Step.nodesAt_reference (index : RepoIndex) (id : String) (reference : Reference) :
    (Step.reference reference).nodesAt index id = index.nodesAt id reference := rfl

theorem Step.of_mem_nodesAt {index : RepoIndex} {id : String} {node : Node} (told : Step)
    (h : node ∈ told.nodesAt index id) : node.IsBuilt ∧ node.id = id := by
  refine ⟨?_, by simpa using (List.mem_filter.mp h).2⟩
  cases told with
  | file file =>
    rw [List.mem_singleton.mp (List.mem_filter.mp h).1]
    exact .module _ _
  | reference reference =>
    rw [nodesAt_reference] at h
    exact RepoIndex.isBuilt_of_mem_nodesAt h

/-- All nodes that a run brings in with an id have that id and are as a builder brings them in. -/
theorem of_mem_nodesAt {index : RepoIndex} {steps : List Step} {id : String} {node : Node}
    (h : node ∈ steps.flatMap (Step.nodesAt index id)) : node.IsBuilt ∧ node.id = id := by
  obtain ⟨told, -, hmem⟩ := List.mem_flatMap.mp h
  exact told.of_mem_nodesAt hmem

/-- The node of an id in the graph of a run is what the nodes that the steps bring in with it make
together. -/
theorem node?_run (index : RepoIndex) (steps : List Step) (id : String) :
    (run index steps).graph.node? id =
      absorbAll none (steps.flatMap (Step.nodesAt index id)) := by
  rw [graph_run, node?_ofChanges, List.filterMap_flatMap, List.filter_flatMap]
  rfl

end GraphBuilder

namespace RepoIndex

open GraphBuilder (Step stepsOf)

def fileNodesAt (files : List SourceFile) (id : String) : List Node :=
  (files.map fun file => Node.internal file.path (some file.language)).filter (·.id == id)

private theorem historyNodes_eq (index : RepoIndex) (files : List SourceFile)
    (references : List Reference) (id : String) :
    fileNodesAt files id ++ references.flatMap (index.nodesAt id) =
      (stepsOf files references).flatMap (Step.nodesAt index id) := by
  rw [fileNodesAt, List.map_eq_flatMap, List.filter_flatMap, stepsOf, List.flatMap_append,
    List.flatMap_map, List.flatMap_map]
  rfl

theorem node?_build (index : RepoIndex) (files : List SourceFile) (references : List Reference)
    (id : String) :
    (Graph.build index files references).node? id =
      absorbAll none (fileNodesAt files id ++ references.flatMap (index.nodesAt id)) := by
  rw [Graph.build_eq_run, GraphBuilder.node?_run, historyNodes_eq]

theorem of_mem_historyNodes {index : RepoIndex} {files : List SourceFile}
    {references : List Reference} {id : String} {node : Node}
    (h : node ∈ fileNodesAt files id ++ references.flatMap (index.nodesAt id)) :
    node.IsBuilt ∧ node.id = id := by
  rw [historyNodes_eq] at h
  exact GraphBuilder.of_mem_nodesAt h

private theorem fileNodesAt_eq_nil_iff {files : List SourceFile} {id : String} :
    fileNodesAt files id = [] ↔ ∀ file ∈ files, file.path ≠ id := by
  rw [fileNodesAt, List.filter_eq_nil_iff]
  simp [Node.internal]

/-- Where the references agree, or a file comes before all of them, every order makes the same
node. -/
theorem node?_build_perm {index : RepoIndex} {files : List SourceFile}
    {references references' : List Reference} (hperm : references.Perm references') {id : String}
    (h : (∀ file ∈ files, file.path ≠ id) → index.AgreeAt references id) :
    (Graph.build index files references).node? id =
      (Graph.build index files references').node? id := by
  rw [node?_build, node?_build]
  have hbuilt := fun node (hnode : node ∈ fileNodesAt files id ++
    references.flatMap (index.nodesAt id)) => of_mem_historyNodes hnode
  apply absorbAll_perm ((hperm.flatMap_right _).append_left _)
  · exact fun node hnode => (hbuilt node hnode).1
  · exact fun a ha b hb => (hbuilt a ha).2.trans (hbuilt b hb).2.symm
  · intro a ha b hb
    cases hnodes : fileNodesAt files id with
    | cons node rest =>
      rw [hnodes, List.cons_append, List.head?_cons, Option.mem_some] at ha hb
      subst ha
      subst hb
      exact ⟨rfl, rfl⟩
    | nil =>
      rw [hnodes, List.nil_append, List.head?_flatMap] at ha hb
      obtain ⟨reference, hmem, ha⟩ := List.exists_of_findSome?_eq_some ha
      obtain ⟨other, hmem', hb⟩ := List.exists_of_findSome?_eq_some hb
      exact h (fileNodesAt_eq_nil_iff.mp hnodes) reference hmem other (hperm.mem_iff.mpr hmem')
        a ha b hb

/-- The reference that comes first decides about the kind and the language of a node. -/
theorem node?_build_cons {index : RepoIndex} {files : List SourceFile} {reference : Reference}
    (references : List Reference) {id : String} (hfile : ∀ file ∈ files, file.path ≠ id)
    {first : Node} (hfirst : first ∈ (index.nodesAt id reference).head?) :
    ∃ node, (Graph.build index files (reference :: references)).node? id = some node ∧
      node.kind = first.kind ∧ node.details.language = first.details.language := by
  obtain ⟨rest, hrest⟩ := List.head?_eq_some_iff.mp hfirst
  have hbuilt : first.IsBuilt := isBuilt_of_mem_nodesAt (List.mem_of_head? hfirst)
  obtain ⟨language, hlanguage⟩ := Option.isSome_iff_exists.mp hbuilt.isSome_language
  rw [node?_build, fileNodesAt_eq_nil_iff.mpr hfile, List.nil_append, List.flatMap_cons, hrest,
    List.cons_append, absorbAll_none, List.head?_cons, Option.map_some]
  refine ⟨_, rfl, rfl, ?_⟩
  rw [findSome?_cons_eq_or, hlanguage, Option.some_or]

end RepoIndex

namespace Graph

variable {index : RepoIndex} {files : List SourceFile} {references references' : List Reference}

theorem consistent_build (index : RepoIndex) (files : List SourceFile)
    (references : List Reference) : (build index files references).Consistent := by
  rw [build_eq_ofChanges]
  exact consistent_ofChanges _

private theorem weight?_build_perm (hperm : references.Perm references') {source target : String}
    (hne : source ≠ target) :
    (build index files references).weight? source target =
      (build index files references').weight? source target := by
  rw [build_eq_ofChanges, build_eq_ofChanges, weight?_ofChanges, weight?_ofChanges,
    RepoIndex.countAccepted_history index files references hne,
    RepoIndex.countAccepted_history index files references' hne, hperm.countP_eq]

private theorem mem_edges_iff_weight? {graph : Graph} (h : graph.Consistent) {edge : Edge} :
    edge ∈ graph.edges ↔
      edge.source ≠ edge.target ∧ graph.weight? edge.source edge.target = some edge.weight := by
  rw [weight?, Option.map_eq_some_iff]
  constructor
  · intro hedge
    exact ⟨(h.joined edge hedge).1, edge, h.edge?_eq_some_iff.mpr ⟨hedge, rfl, rfl⟩, rfl⟩
  · rintro ⟨-, other, hother, hweight⟩
    obtain ⟨hmem, hsource, htarget⟩ := h.edge?_eq_some_iff.mp hother
    have heq : other = edge := Edge.eq_of_ends (Prod.ext hsource htarget) hweight
    rw [← heq]
    exact hmem

private theorem mem_edges_build_perm (hperm : references.Perm references') (edge : Edge) :
    edge ∈ (build index files references).edges ↔ edge ∈ (build index files references').edges := by
  rw [mem_edges_iff_weight? (consistent_build index files references),
    mem_edges_iff_weight? (consistent_build index files references')]
  apply and_congr_right
  intro hne
  rw [weight?_build_perm hperm hne]

private theorem contains_build_perm (hperm : references.Perm references') (id : String) :
    (build index files references).contains id = (build index files references').contains id := by
  rw [build_eq_ofChanges, build_eq_ofChanges, contains_ofChanges, contains_ofChanges, introduced,
    introduced, RepoIndex.history, RepoIndex.history]
  exact ((hperm.flatMap_right _).append_left _).any_eq

theorem mem_nodes_iff_node? {graph : Graph} (h : graph.Consistent) {node : Node} :
    node ∈ graph.nodes ↔ graph.node? node.id = some node := by
  rw [h.node?_eq_some_iff]
  simp

/-- The ids and the weighted edges of a graph are the same for every order of its references. Its
nodes are the same for every order exactly if the references agree at every id that is not the path
of a file. -/
theorem build_perm (index : RepoIndex) (files : List SourceFile) (references : List Reference) :
    (∀ references', references.Perm references' →
      (∀ edge, edge ∈ (build index files references).edges ↔
        edge ∈ (build index files references').edges) ∧
      ∀ id, (build index files references).contains id =
        (build index files references').contains id) ∧
    ((∀ references', references.Perm references' →
        (build index files references).SameContent (build index files references')) ↔
      ∀ id, (∀ file ∈ files, file.path ≠ id) → index.AgreeAt references id) := by
  refine ⟨fun _ hperm => ⟨mem_edges_build_perm hperm, contains_build_perm hperm⟩, ?_, ?_⟩
  · intro hsame id hfile reference hmem other hmem' a ha b hb
    have hshown : ∀ {first : Reference} {c : Node}, first ∈ references →
        c ∈ (index.nodesAt id first).head? →
        ∃ node, (build index files references).node? id = some node ∧ node.kind = c.kind ∧
          node.details.language = c.details.language := by
      intro first c hfirst hc
      obtain ⟨before, after, rfl⟩ := List.append_of_mem hfirst
      have hperm : (before ++ first :: after).Perm (first :: (before ++ after)) :=
        List.perm_middle
      obtain ⟨node, hnode, hknown⟩ := RepoIndex.node?_build_cons (before ++ after) hfile hc
      obtain ⟨hmem, hid⟩ := (consistent_build index files _).node?_eq_some_iff.mp hnode
      refine ⟨node, ?_, hknown⟩
      exact (consistent_build index files _).node?_eq_some_iff.mpr
        ⟨((hsame _ hperm).nodes node).mpr hmem, hid⟩
    obtain ⟨node, hnode, hkind, hlanguage⟩ := hshown hmem ha
    obtain ⟨node', hnode', hkind', hlanguage'⟩ := hshown hmem' hb
    rw [hnode] at hnode'
    cases hnode'
    exact ⟨hkind.symm.trans hkind', hlanguage.symm.trans hlanguage'⟩
  · intro hagree references' hperm
    refine ⟨?_, mem_edges_build_perm hperm⟩
    intro node
    rw [mem_nodes_iff_node? (consistent_build index files references),
      mem_nodes_iff_node? (consistent_build index files references'),
      RepoIndex.node?_build_perm hperm (hagree node.id)]

def scripts : List SourceFile := [⟨"a.js", .javaScript, ""⟩, ⟨"b.ts", .typeScript, ""⟩]

/-- A reference of a file to a module beside it that does not exist. -/
def toMissing (file : String) : Reference := ⟨file, "./x", .imports, 1⟩

private theorem files_build_scripts : (RepoIndex.build scripts []).files =
    (({} : Std.HashMap String Language).insert "a.js" .javaScript).insert "b.ts" .typeScript := rfl

private theorem language?_build_scripts (path : String) :
    (RepoIndex.build scripts []).language? path =
      if "b.ts" = path then some .typeScript
      else if "a.js" = path then some .javaScript else none := by
  rw [RepoIndex.language?, files_build_scripts]
  simp [Std.HashMap.getElem?_insert]

private theorem scriptFile?_missing : Importer.scriptFile? (.build scripts []) "x" = none := by
  have hcontains : (RepoIndex.build scripts []).contains =
      fun path => "b.ts" == path || "a.js" == path := by
    funext path
    rw [RepoIndex.contains, files_build_scripts]
    simp [Std.HashMap.contains_insert]
  simp only [Importer.scriptFile?, RepoIndex.probe?, hcontains]
  decide

private theorem script?_missing {file : String} {language : Language}
    (hdir : Path.parent file = "") :
    Importer.script? ⟨.build scripts [], file, language, .imports⟩ "./x" =
      some (.internal "x" language) := by
  have hquery : Importer.withoutQuery "./x" = "./x" := by decide
  have hpath : Importer.relativePath?
      ⟨.build scripts [], file, language, .imports⟩ "./x" = some "x" := by
    have hjoin : Path.join (Path.parent file) "./x" = "./x" := by
      rw [hdir]
      rfl
    have hdot : "./x".toList.head? ≠ some '/' := by decide
    rw [Importer.relativePath?, if_neg hdot, Importer.dir, hjoin]
    decide
  have hinternal : Importer.internal ⟨.build scripts [], file, language, .imports⟩ "x" =
      .internal "x" language := by
    have hnone : (RepoIndex.build scripts []).namespaces = {} := rfl
    simp [Importer.internal, language?_build_scripts, RepoIndex.namespaceLanguage?, hnone]
  simp [Importer.script?, hquery, Importer.relative?, hpath, scriptFile?_missing, hinternal]

private theorem nodesAt_toMissing {file : String} {language : Language}
    (hlanguage : (RepoIndex.build scripts []).language? file = some language)
    (hscript : language = .javaScript ∨ language = .typeScript) (hdir : Path.parent file = "")
    (hne : file ≠ "x") :
    (RepoIndex.build scripts []).nodesAt "x" (toMissing file) =
      [.internal "x" (some language)] := by
  have htarget : Importer.target? ⟨.build scripts [], file, language, .imports⟩ "./x" =
      some (.internal "x" language) := by
    rcases hscript with rfl | rfl
    · exact script?_missing hdir
    · exact script?_missing hdir
  have hresolve : (RepoIndex.build scripts []).resolve? (toMissing file) =
      some (.internal "x" language) := by
    have htoken : String.ofList (Text.trim "./x".toList) = "./x" := by decide
    rw [RepoIndex.resolve?]
    simp only [toMissing, htoken]
    simp [RepoIndex.importingLanguage?, hlanguage, htarget, RepoIndex.isElsewhere, Ne.symm hne]
  obtain ⟨importing, hchanges⟩ := RepoIndex.changes_of_resolve? hresolve
  rw [RepoIndex.nodesAt, hchanges]
  simp [Change.node?, RepoIndex.targetNode, Node.internal, toMissing, hne]

private theorem node?_build_scripts :
    (build (.build scripts []) scripts [toMissing "a.js", toMissing "b.ts"]).node? "x" =
        some (.internal "x" (some .javaScript)) ∧
      (build (.build scripts []) scripts [toMissing "b.ts", toMissing "a.js"]).node? "x" =
        some (.internal "x" (some .typeScript)) := by
  have hscript := nodesAt_toMissing (language?_build_scripts "a.js") (Or.inl rfl) (by decide)
    (by decide)
  have htyped := nodesAt_toMissing (language?_build_scripts "b.ts") (Or.inr rfl) (by decide)
    (by decide)
  have hfiles : RepoIndex.fileNodesAt scripts "x" = [] := by decide
  rw [RepoIndex.node?_build, RepoIndex.node?_build, hfiles]
  simp only [List.flatMap_cons, List.flatMap_nil, hscript, htyped]
  exact ⟨rfl, rfl⟩

/-- Two files of different languages refer to one module that is not indexed: its language is that
of the file whose reference comes first. -/
theorem build_depends_on_order :
    (scripts.map (·.path)).Nodup ∧
      [toMissing "a.js", toMissing "b.ts"].Perm [toMissing "b.ts", toMissing "a.js"] ∧
      ¬ (build (.build scripts []) scripts [toMissing "a.js", toMissing "b.ts"]).SameContent
        (build (.build scripts []) scripts [toMissing "b.ts", toMissing "a.js"]) := by
  refine ⟨by decide, List.Perm.swap _ _ _, ?_⟩
  intro hsame
  obtain ⟨hscript, htyped⟩ := node?_build_scripts
  obtain ⟨hmem, hid⟩ := (consistent_build _ _ _).node?_eq_some_iff.mp hscript
  have hother := (consistent_build _ _ _).node?_eq_some_iff.mpr ⟨(hsame.nodes _).mp hmem, hid⟩
  rw [htyped] at hother
  exact absurd hother (by decide)

/-- Even so, the two orders make the same edges. -/
theorem build_perm_scripts :
    [toMissing "a.js", toMissing "b.ts"].Perm [toMissing "b.ts", toMissing "a.js"] ∧
      ∀ edge,
        edge ∈ (build (.build scripts []) scripts [toMissing "a.js", toMissing "b.ts"]).edges ↔
        edge ∈ (build (.build scripts []) scripts [toMissing "b.ts", toMissing "a.js"]).edges := by
  have hperm : [toMissing "a.js", toMissing "b.ts"].Perm [toMissing "b.ts", toMissing "a.js"] :=
    List.Perm.swap _ _ _
  exact ⟨hperm, ((build_perm (.build scripts []) scripts _).1 _ hperm).1⟩

end Graph

end RepoGraph
