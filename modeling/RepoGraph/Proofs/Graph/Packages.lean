import RepoGraph.Proofs.Graph.Commutation
import RepoGraph.Proofs.Index.NearestManifest

/-!
# The nodes of packages

The node of a package says the same whatever came before it and in which order. Its id names the
ecosystem and the package, and its version is the smallest one that is declared for the file of a
reference to the package.
-/

namespace RepoGraph

open RepoGraph.Graph Text

namespace NodeDetails

def IsSmallest (version : String) (versions : List (Option String)) : Prop :=
  some version ∈ versions ∧ ∀ other, some other ∈ versions → version ≤ other

private theorem IsSmallest.unique {a b : String} {versions : List (Option String)}
    (ha : IsSmallest a versions) (hb : IsSmallest b versions) : a = b :=
  String.le_antisymm (ha.2 b hb.1) (hb.2 a ha.1)

private theorem smallerVersion_cases (a b : Option String) :
    smallerVersion a b = a ∨ smallerVersion a b = b := by
  cases a with
  | none => exact Or.inr rfl
  | some a =>
    cases b with
    | none => exact Or.inl rfl
    | some b =>
      rw [smallerVersion]
      split
      · exact Or.inr rfl
      · exact Or.inl rfl

private theorem exists_smallerVersion_le {a b : Option String} {version : String}
    (h : a = some version ∨ b = some version) :
    ∃ smaller, smallerVersion a b = some smaller ∧ smaller ≤ version := by
  rcases h with rfl | rfl
  · cases b with
    | none => exact ⟨version, rfl, String.le_refl _⟩
    | some b =>
      rw [smallerVersion]
      split
      · rename_i hlt
        exact ⟨b, rfl, String.not_lt.mp (String.lt_asymm hlt)⟩
      · exact ⟨version, rfl, String.le_refl _⟩
  · cases a with
    | none => exact ⟨version, rfl, String.le_refl _⟩
    | some a =>
      rw [smallerVersion]
      split
      · exact ⟨version, rfl, String.le_refl _⟩
      · rename_i hnot
        exact ⟨a, rfl, String.not_lt.mp hnot⟩

private theorem isSmallest_foldl {version : String} {start : Option String}
    {versions : List (Option String)} (h : versions.foldl smallerVersion start = some version) :
    IsSmallest version (start :: versions) := by
  induction versions generalizing start with
  | nil =>
    obtain rfl : start = some version := h
    refine ⟨List.mem_singleton_self _, ?_⟩
    intro other hother
    obtain rfl : other = version := Option.some.inj (List.mem_singleton.mp hother)
    exact String.le_refl _
  | cons next versions ih =>
    obtain ⟨hmem, hle⟩ := ih h
    constructor
    · rcases List.mem_cons.mp hmem with heq | hmem
      · rcases smallerVersion_cases start next with hstart | hnext
        · rw [heq, hstart]
          exact List.mem_cons_self
        · rw [heq, hnext]
          exact List.mem_cons_of_mem _ List.mem_cons_self
      · exact List.mem_cons_of_mem _ (List.mem_cons_of_mem _ hmem)
    · intro other hother
      rw [List.mem_cons, List.mem_cons, ← or_assoc] at hother
      rcases hother with hends | hother
      · obtain ⟨smaller, hsmaller, hother⟩ :=
          exists_smallerVersion_le (hends.imp Eq.symm Eq.symm)
        have hfirst : version ≤ smaller := by
          apply hle
          rw [hsmaller]
          exact List.mem_cons_self
        exact String.le_trans hfirst hother
      · exact hle other (List.mem_cons_of_mem _ hother)

private theorem smallerVersion_eq_none_iff {a b : Option String} :
    smallerVersion a b = none ↔ a = none ∧ b = none := by
  cases a <;> cases b <;> simp [smallerVersion]

private theorem foldl_smallerVersion_eq_none_iff {start : Option String}
    {versions : List (Option String)} :
    versions.foldl smallerVersion start = none ↔
      start = none ∧ ∀ version ∈ versions, version = none := by
  induction versions generalizing start with
  | nil => simp
  | cons next versions ih =>
    rw [List.foldl_cons, ih, smallerVersion_eq_none_iff, List.forall_mem_cons, and_assoc]

def smallestVersion (versions : List (Option String)) : Option String :=
  versions.foldl smallerVersion none

private theorem smallestVersion_eq_none_iff {versions : List (Option String)} :
    smallestVersion versions = none ↔ ∀ version, some version ∉ versions := by
  rw [smallestVersion, foldl_smallerVersion_eq_none_iff, and_iff_right rfl]
  constructor
  · intro hnone version hmem
    cases hnone _ hmem
  · intro hnone version hmem
    cases version with
    | none => rfl
    | some version => exact absurd hmem (hnone version)

private theorem smallestVersion_eq_some_iff {version : String} {versions : List (Option String)} :
    smallestVersion versions = some version ↔ IsSmallest version versions := by
  have hsmallest : ∀ {smallest}, smallestVersion versions = some smallest →
      IsSmallest smallest versions := by
    intro smallest h
    have hfirst := isSmallest_foldl h
    simpa [IsSmallest] using hfirst
  refine ⟨hsmallest, ?_⟩
  intro h
  cases hfound : smallestVersion versions with
  | none => exact absurd h.1 (smallestVersion_eq_none_iff.mp hfound version)
  | some smallest => rw [h.unique (hsmallest hfound)]

end NodeDetails

def Node.package (ecosystem : Ecosystem) (package : String) (version : Option String) : Node :=
  .external (ecosystem.packageId package) package
    { language := some ecosystem.language
      packageManager := ecosystem.packageManager?
      packageName := some package
      packageVersion := version }

private theorem RepoIndex.targetNode_external (index : RepoIndex) (file : String)
    (ecosystem : Ecosystem) (package : String) (language : Language) :
    index.targetNode file (.external ecosystem package language) =
      .package ecosystem package (index.declaredVersion? file ecosystem package) := rfl

section

variable {ecosystem : Ecosystem} {package : String} {node : Node} {nodes : List Node}

private theorem Node.IsBuilt.of_packageId (h : node.IsBuilt)
    (hid : node.id = ecosystem.packageId package) :
    (∃ language, node = .internal (ecosystem.packageId package) (some language)) ∨
      ∃ version, node = .package ecosystem package version := by
  cases h with
  | module id language => exact Or.inl ⟨language, congrArg (Node.internal · _) hid⟩
  | package ecosystem' package' version =>
    obtain ⟨rfl, rfl⟩ := Ecosystem.packageId_inj.mp hid
    exact Or.inr ⟨version, rfl⟩

private theorem Node.IsBuilt.eq_package_of_external (h : node.IsBuilt)
    (hkind : node.kind = .external) :
    ∃ ecosystem package version, node = .package ecosystem package version := by
  cases h with
  | module id language => cases hkind
  | package ecosystem package version => exact ⟨ecosystem, package, version, rfl⟩

/-- Where the first of the nodes with the id of a package stands for the package, they make a node
that differs from it in the version only. -/
theorem Graph.absorbAll_package
    (hbuilt : ∀ node ∈ nodes, node.IsBuilt ∧ node.id = ecosystem.packageId package)
    {version : Option String} (hfirst : nodes.head? = some (.package ecosystem package version)) :
    absorbAll none nodes = some (.package ecosystem package
      (NodeDetails.smallestVersion (nodes.map (·.details.packageVersion)))) := by
  obtain ⟨rest, rfl⟩ := List.head?_eq_some_iff.mp hfirst
  have hmanager :
      (Node.package ecosystem package version :: rest).findSome? (·.details.packageManager) =
        ecosystem.packageManager? := by
    rw [findSome?_cons_eq_or]
    change ecosystem.packageManager?.or _ = _
    cases hknown : ecosystem.packageManager? with
    | some manager => rfl
    | none =>
      rw [Option.none_or, List.findSome?_eq_none_iff]
      intro node hnode
      obtain ⟨hnodebuilt, hid⟩ := hbuilt node (List.mem_cons_of_mem _ hnode)
      rcases hnodebuilt.of_packageId hid with ⟨language, rfl⟩ | ⟨version, rfl⟩
      · rfl
      · exact hknown
  rw [absorbAll_none, List.head?_cons, Option.map_some, hmanager, findSome?_cons_eq_or,
    findSome?_cons_eq_or, NodeDetails.smallestVersion, List.foldl_map]
  rfl

end

namespace RepoIndex

def Imports (index : RepoIndex) (ecosystem : Ecosystem) (package : String)
    (reference : Reference) : Prop :=
  ∃ language, index.resolve? reference = some (.external ecosystem package language)

/-- Whether a version of a package is declared for the file of a reference to it. -/
def IsImportedAt (index : RepoIndex) (references : List Reference) (ecosystem : Ecosystem)
    (package version : String) : Prop :=
  ∃ reference ∈ references, index.Imports ecosystem package reference ∧
    index.declaredVersion? reference.fromFile ecosystem package = some version

end RepoIndex

namespace GraphBuilder

variable {index : RepoIndex} {steps : List Step} {id package version : String} {node : Node}
  {ecosystem : Ecosystem}

private theorem exists_reference_of_package {reading : Option String}
    (h : .package ecosystem package reading ∈ steps.flatMap (Step.nodesAt index id)) :
    ∃ reference ∈ references steps, index.Imports ecosystem package reference ∧
      index.declaredVersion? reference.fromFile ecosystem package = reading := by
  obtain ⟨told, htold, hnode⟩ := List.mem_flatMap.mp h
  cases told with
  | file file => cases congrArg Node.kind (List.mem_singleton.mp (List.mem_filter.mp hnode).1)
  | reference reference =>
    have hmem : reference ∈ references steps := List.mem_filterMap.mpr ⟨_, htold, rfl⟩
    rw [Step.nodesAt_reference] at hnode
    obtain ⟨target, hresolve, ⟨language, hfile⟩ | htarget⟩ :=
      RepoIndex.exists_target_of_mem_nodesAt hnode
    · cases congrArg Node.kind hfile
    · cases target with
      | internal id language => cases congrArg Node.kind htarget
      | external ecosystem' package' language =>
        rw [RepoIndex.targetNode_external] at htarget
        have hid := congrArg Node.id htarget
        obtain ⟨rfl, rfl⟩ := Ecosystem.packageId_inj.mp hid
        exact ⟨reference, hmem, ⟨language, hresolve⟩,
          (congrArg (·.details.packageVersion) htarget).symm⟩

private theorem targetNode_mem_nodesAt {reference : Reference} {target : Target}
    (h : reference ∈ references steps) (hresolve : index.resolve? reference = some target) :
    index.targetNode reference.fromFile target ∈
      steps.flatMap (Step.nodesAt index target.nodeId) := by
  obtain ⟨told, htold, hreference⟩ := List.mem_filterMap.mp h
  refine List.mem_flatMap.mpr ⟨told, htold, ?_⟩
  cases told with
  | file file => cases hreference
  | reference other =>
    obtain rfl : other = reference := Option.some.inj hreference
    obtain ⟨language, hchanges⟩ := RepoIndex.changes_of_resolve? hresolve
    rw [Step.nodesAt, Step.changes, hchanges]
    exact List.mem_filter.mpr
      ⟨List.mem_cons_of_mem _ List.mem_cons_self, by rw [RepoIndex.targetNode_id, beq_self_eq_true]⟩

/-- The versions that the nodes of a package know are those declared for the files that refer to
it. -/
theorem some_mem_versions_iff :
    some version ∈ (steps.flatMap (Step.nodesAt index (ecosystem.packageId package))).map
        (·.details.packageVersion) ↔
      index.IsImportedAt (references steps) ecosystem package version := by
  rw [List.mem_map]
  constructor
  · rintro ⟨node, hnode, hversion⟩
    obtain ⟨hbuilt, hid⟩ := of_mem_nodesAt hnode
    rcases hbuilt.of_packageId hid with ⟨language, rfl⟩ | ⟨reading, rfl⟩
    · cases hversion
    · obtain rfl : reading = some version := hversion
      exact exists_reference_of_package hnode
  · rintro ⟨reference, hmem, ⟨language, hresolve⟩, hversion⟩
    exact ⟨_, targetNode_mem_nodesAt hmem hresolve, hversion⟩

private theorem isSmallest_versions_iff :
    NodeDetails.IsSmallest version
        ((steps.flatMap (Step.nodesAt index (ecosystem.packageId package))).map
          (·.details.packageVersion)) ↔
      index.IsImportedAt (references steps) ecosystem package version ∧
        ∀ other, index.IsImportedAt (references steps) ecosystem package other → other ≠ version →
          bytes version < bytes other := by
  simp only [NodeDetails.IsSmallest, some_mem_versions_iff, le_iff_bytes_lt]

end GraphBuilder

/-- A node stands for a package and shows the smallest of the versions that are declared for the
files of the references to it. -/
structure Node.ShowsPackage (node : Node) (index : RepoIndex) (references : List Reference)
    (ecosystem : Ecosystem) (package : String) : Prop where
  imported : ∃ reference ∈ references, index.Imports ecosystem package reference
  id_eq : node.id = ecosystem.name ++ ":" ++ package
  label_eq : node.label = package
  packageName_eq : node.details.packageName = some package
  language_eq : node.details.language = some ecosystem.language
  packageManager_eq : node.details.packageManager = ecosystem.packageManager?
  packageVersion_eq_some_iff : ∀ version, node.details.packageVersion = some version ↔
    index.IsImportedAt references ecosystem package version ∧
      ∀ other, index.IsImportedAt references ecosystem package other → other ≠ version →
        bytes version < bytes other
  packageVersion_eq_none_iff : node.details.packageVersion = none ↔
    ∀ version, ¬ index.IsImportedAt references ecosystem package version

namespace GraphBuilder

variable {index : RepoIndex} {steps : List Step} {node : Node}

/-- In the graph of a run, every node of a package is determined by the references to the package:
its version is the smallest one that is declared for one of their files. -/
theorem showsPackage_of_external (h : node ∈ (run index steps).graph.nodes)
    (hkind : node.kind = .external) :
    ∃ ecosystem package, node.ShowsPackage index (references steps) ecosystem package := by
  have hnode := (mem_nodes_iff_node? (consistent_run index steps)).mp h
  rw [node?_run] at hnode
  generalize hid : node.id = id at hnode
  obtain ⟨first, hfirst, hfirstkind⟩ : ∃ first,
      (steps.flatMap (Step.nodesAt index id)).head? = some first ∧ first.kind = .external := by
    rw [absorbAll_none, Option.map_eq_some_iff] at hnode
    obtain ⟨first, hfirst, rfl⟩ := hnode
    exact ⟨first, hfirst, hkind⟩
  have hmem := List.mem_of_head? hfirst
  obtain ⟨hbuilt, hfirstid⟩ := of_mem_nodesAt hmem
  obtain ⟨ecosystem, package, version, rfl⟩ := hbuilt.eq_package_of_external hfirstkind
  obtain rfl : ecosystem.packageId package = id := hfirstid
  obtain ⟨reference, hreference, himports, -⟩ := exists_reference_of_package hmem
  rw [absorbAll_package (fun _ => of_mem_nodesAt) hfirst, Option.some.injEq] at hnode
  subst hnode
  refine ⟨ecosystem, package, ⟨reference, hreference, himports⟩, rfl, rfl, rfl, rfl, rfl, ?_, ?_⟩
  · intro version
    rw [← isSmallest_versions_iff]
    exact NodeDetails.smallestVersion_eq_some_iff
  · simp only [← some_mem_versions_iff]
    exact NodeDetails.smallestVersion_eq_none_iff

/-- A node with the id of an imported package knows its name, whether it stands for the package or
for a module. -/
theorem packageName_run {ecosystem : Ecosystem} {package : String} {reference : Reference}
    (h : (run index steps).graph.node? (ecosystem.packageId package) = some node)
    (hmem : reference ∈ references steps) (himports : index.Imports ecosystem package reference) :
    node.details.packageName = some package := by
  obtain ⟨language, hresolve⟩ := himports
  rw [node?_run, absorbAll_none, Option.map_eq_some_iff] at h
  obtain ⟨first, -, rfl⟩ := h
  dsimp only
  cases hfound : (steps.flatMap (Step.nodesAt index (ecosystem.packageId package))).findSome?
      (·.details.packageName) with
  | none =>
    rw [List.findSome?_eq_none_iff] at hfound
    cases hfound _ (targetNode_mem_nodesAt hmem hresolve)
  | some name =>
    obtain ⟨known, hknown, hname⟩ := List.exists_of_findSome?_eq_some hfound
    obtain ⟨hbuilt, hid⟩ := of_mem_nodesAt hknown
    rcases hbuilt.of_packageId hid with ⟨language, rfl⟩ | ⟨version, rfl⟩
    · cases hname
    · exact hname.symm

def requirements : List RepoIndex.Addition :=
  [.manifest (RepoIndex.requestsAt "a/requirements.txt" "==2.0"),
    .manifest (RepoIndex.requestsAt "b/requirements.txt" "==1.0")]

def requestsIndex : RepoIndex := .ofAdditions requirements

def importsRequests (file : String) : Reference := ⟨file, "requests", .imports, 1⟩

/-- Files in both directories import the package, and one that no requirements apply to. -/
def requestsSteps : List Step :=
  [.reference (importsRequests "a/x.py"), .reference (importsRequests "c.py"),
    .reference (importsRequests "b/y.py")]

private theorem resolve?_importsRequests {file : String}
    (hfile : Language.ofPath? file = some .python) :
    requestsIndex.resolve? (importsRequests file) =
      some (.external .pypi "requests" .python) := by
  have himporting : requestsIndex.importingLanguage? file = some .python := by
    have hfiles : requestsIndex.files = {} := rfl
    rw [RepoIndex.importingLanguage?, RepoIndex.language?, hfiles, Std.HashMap.getElem?_empty,
      Option.none_or, hfile]
  have hcontains : requestsIndex.contains = fun _ => false := by
    have hfiles : requestsIndex.files = {} := rfl
    funext path
    rw [RepoIndex.contains, hfiles, Std.HashMap.contains_empty]
  have hsearch : Importer.absolutePython? ⟨requestsIndex, file, .python, .imports⟩ "requests" =
      none := by
    rw [Importer.absolutePython?, List.findSome?_eq_none_iff]
    intro root _
    rw [List.findSome?_eq_none_iff]
    intro part _
    rw [Importer.pythonFile?, RepoIndex.probe?, hcontains]
    simp
  have hexternal : Importer.external? ⟨requestsIndex, file, .python, .imports⟩ "requests" =
      some (.external .pypi "requests" .python) := by
    have hecosystem : Ecosystem.ofReference .python "requests" = .pypi := by decide
    have hroot : Ecosystem.pypi.packageRoot "requests" = "requests" := by decide
    rw [Importer.external?]
    dsimp only
    rw [hecosystem, hroot, if_neg (by decide)]
  have hwritten : (importsRequests file).written = "requests" := by
    have htrim : String.ofList (trim "requests".toList) = "requests" := by decide
    exact htrim
  have htarget : Importer.target? ⟨requestsIndex, file, .python, .imports⟩ "requests" =
      some (.external .pypi "requests" .python) := by
    rw [Importer.target?]
    dsimp only
    rw [Importer.python?, if_neg (by decide), hsearch]
    exact hexternal
  rw [RepoIndex.resolve?_of_importing (by rw [hwritten]; decide) himporting, hwritten]
  exact congrArg (Option.filter (RepoIndex.isElsewhere file)) htarget

private theorem declaredVersion?_requestsIndex :
    requestsIndex.declaredVersion? "a/x.py" .pypi "requests" = some "==2.0" ∧
      requestsIndex.declaredVersion? "c.py" .pypi "requests" = none ∧
      requestsIndex.declaredVersion? "b/y.py" .pypi "requests" = some "==1.0" := by
  have hcases : ∀ manifest ∈ RepoIndex.addedManifests requirements,
      manifest = RepoIndex.requestsAt "a/requirements.txt" "==2.0" ∨
        manifest = RepoIndex.requestsAt "b/requirements.txt" "==1.0" := by decide
  have ha : requestsIndex.declaredVersion? "a/x.py" .pypi "requests" =
      (RepoIndex.requestsAt "a/requirements.txt" "==2.0").version? "requests" := by
    apply RepoIndex.declaredVersion?_of_only
    · exact List.mem_cons_self
    · rfl
    · exact Or.inr ⟨"x.py", by decide⟩
    · intro other hother _ hencloses
      rcases hcases other hother with rfl | rfl
      · rfl
      · exact absurd hencloses.isPrefix (by decide)
  have hb : requestsIndex.declaredVersion? "b/y.py" .pypi "requests" =
      (RepoIndex.requestsAt "b/requirements.txt" "==1.0").version? "requests" := by
    apply RepoIndex.declaredVersion?_of_only
    · exact List.mem_cons_of_mem _ List.mem_cons_self
    · rfl
    · exact Or.inr ⟨"y.py", by decide⟩
    · intro other hother _ hencloses
      rcases hcases other hother with rfl | rfl
      · exact absurd hencloses.isPrefix (by decide)
      · rfl
  have hc : requestsIndex.declaredVersion? "c.py" .pypi "requests" =
      ({} : RepoIndex).declaredVersion? "c.py" .pypi "requests" := by
    have hindex : requestsIndex = (({} : RepoIndex).addManifest
        (RepoIndex.requestsAt "a/requirements.txt" "==2.0")).addManifest
        (RepoIndex.requestsAt "b/requirements.txt" "==1.0") := rfl
    rw [hindex, RepoIndex.declaredVersion?_addManifest _ (Or.inr fun h =>
      absurd h.isPrefix (by decide)), RepoIndex.declaredVersion?_addManifest _ (Or.inr fun h =>
      absurd h.isPrefix (by decide))]
  rw [ha, hb, hc]
  refine ⟨by decide, ?_, by decide⟩
  simp [RepoIndex.declaredVersion?_eq, RepoIndex.versionIn?]

private theorem mem_requestsSteps {reference : Reference}
    (h : reference ∈ references requestsSteps) :
    reference = importsRequests "a/x.py" ∨ reference = importsRequests "c.py" ∨
      reference = importsRequests "b/y.py" := by
  simpa [references, requestsSteps, Step.reference?] using h

private theorem exists_node_requests :
    ∃ node ∈ (run requestsIndex requestsSteps).graph.nodes,
      node.id = Ecosystem.pypi.packageId "requests" ∧ node.kind = .external := by
  have hnodes : ∀ file : String, Language.ofPath? file = some .python →
      file ≠ Ecosystem.pypi.packageId "requests" →
      Step.nodesAt requestsIndex (Ecosystem.pypi.packageId "requests")
          (.reference (importsRequests file)) =
        [requestsIndex.targetNode file (.external .pypi "requests" .python)] := by
    intro file hfile hne
    obtain ⟨language, hchanges⟩ :=
      RepoIndex.changes_of_resolve? (resolve?_importsRequests hfile)
    rw [Step.nodesAt, Step.changes, hchanges]
    simp [Change.node?, Node.internal, importsRequests, hne, Target.nodeId]
  obtain ⟨node, hnode, hkind⟩ : ∃ node, (run requestsIndex requestsSteps).graph.node?
      (Ecosystem.pypi.packageId "requests") = some node ∧ node.kind = .external := by
    rw [node?_run, requestsSteps, List.flatMap_cons, List.flatMap_cons, List.flatMap_singleton,
      hnodes "a/x.py" (by decide) (by decide), hnodes "c.py" (by decide) (by decide),
      hnodes "b/y.py" (by decide) (by decide)]
    exact ⟨_, rfl, rfl⟩
  obtain ⟨hmem, hid⟩ := (consistent_run _ _).node?_eq_some_iff.mp hnode
  exact ⟨node, hmem, hid, hkind⟩

/-- The node shows the smaller version, although another one came first. -/
theorem showsPackage_of_external_requests :
    ∃ node ∈ (run requestsIndex requestsSteps).graph.nodes, node.kind = .external ∧
      node.ShowsPackage requestsIndex (references requestsSteps) .pypi "requests" ∧
      node.details.packageVersion = some "==1.0" := by
  obtain ⟨node, hmem, hid, hkind⟩ := exists_node_requests
  obtain ⟨ecosystem, package, hshows⟩ := showsPackage_of_external hmem hkind
  have hsame : Ecosystem.pypi.packageId "requests" = ecosystem.packageId package :=
    hid.symm.trans hshows.id_eq
  obtain ⟨rfl, rfl⟩ := Ecosystem.packageId_inj.mp hsame
  refine ⟨node, hmem, hkind, hshows, ?_⟩
  obtain ⟨ha, hc, hb⟩ := declaredVersion?_requestsIndex
  rw [hshows.packageVersion_eq_some_iff]
  constructor
  · exact ⟨importsRequests "b/y.py", by decide, ⟨_, resolve?_importsRequests (by decide)⟩, hb⟩
  · rintro other ⟨reference, hreference, -, hother⟩ hne
    rw [← lt_iff_bytes_lt]
    rcases mem_requestsSteps hreference with rfl | rfl | rfl
    · rw [Option.some.inj (hother.symm.trans ha)]
      decide
    · cases hother.symm.trans hc
    · exact absurd (Option.some.inj (hother.symm.trans hb)) hne

end GraphBuilder

end RepoGraph
