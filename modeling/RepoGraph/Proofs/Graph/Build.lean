import RepoGraph.Graph.Builder
import RepoGraph.Proofs.Graph.History

/-!
# The history of a built graph

A builder makes one change for a file and three for a reference that points somewhere: it brings in
both ends and then counts the reference. So the graph of files and references is the result of a run
whose ids and counts can be read off the references.
-/

namespace RepoGraph

open RepoGraph.Graph

def SourceFile.change (file : SourceFile) : Change :=
  .upsert (.internal file.path (some file.language))

namespace RepoIndex

def targetId? (index : RepoIndex) (reference : Reference) : Option String :=
  (index.resolve? reference).map Target.nodeId

def pointsTo (index : RepoIndex) (source target : String) (reference : Reference) : Bool :=
  reference.fromFile == source && index.targetId? reference == some target

def changes (index : RepoIndex) (reference : Reference) : List Change :=
  match index.resolve? reference, index.importingLanguage? reference.fromFile with
  | some target, some language =>
    [.upsert (.internal reference.fromFile (some language)),
      .upsert (index.targetNode reference.fromFile target),
      .reference reference.fromFile target.nodeId]
  | _, _ => []

/-- The changes that files and references make. -/
def history (index : RepoIndex) (files : List SourceFile) (references : List Reference) :
    List Change :=
  files.map SourceFile.change ++ references.flatMap index.changes

@[simp] theorem targetNode_id (index : RepoIndex) (file : String) (target : Target) :
    (index.targetNode file target).id = target.nodeId := by
  cases target <;> rfl

theorem importingLanguage?_of_resolve? {index : RepoIndex} {reference : Reference}
    {target : Target} (h : index.resolve? reference = some target) :
    ∃ language, index.importingLanguage? reference.fromFile = some language := by
  cases hlang : index.importingLanguage? reference.fromFile with
  | some language => exact ⟨language, rfl⟩
  | none =>
    rw [resolve?] at h
    simp [hlang] at h

theorem changes_of_resolve? {index : RepoIndex} {reference : Reference} {target : Target}
    (h : index.resolve? reference = some target) :
    ∃ language, index.changes reference =
      [.upsert (.internal reference.fromFile (some language)),
        .upsert (index.targetNode reference.fromFile target),
        .reference reference.fromFile target.nodeId] := by
  obtain ⟨language, hlang⟩ := importingLanguage?_of_resolve? h
  refine ⟨language, ?_⟩
  rw [changes, h, hlang]

theorem changes_of_dropped {index : RepoIndex} {reference : Reference}
    (h : index.resolve? reference = none) : index.changes reference = [] := by
  rw [changes, h]

end RepoIndex

namespace GraphBuilder

private theorem graph_link (index : RepoIndex) (file : String) (language : Language)
    (target : Target) (builder : GraphBuilder) :
    (builder.link index file language target).1.graph =
      [Change.upsert (.internal file (some language)), .upsert (index.targetNode file target),
        .reference file target.nodeId].foldl Graph.apply builder.graph := by
  obtain ⟨graph, resolved, dropped⟩ := builder
  simp only [List.foldl_cons, List.foldl_nil, Graph.apply]
  rw [link]
  dsimp only
  split
  · rename_i hadd
    rw [hadd]
  · rename_i hadd
    rw [hadd]

private theorem graph_addReference (index : RepoIndex) (builder : GraphBuilder)
    (reference : Reference) :
    (builder.addReference index reference).1.graph =
      (index.changes reference).foldl Graph.apply builder.graph := by
  rw [addReference]
  cases h : index.resolve? reference with
  | none =>
    rw [RepoIndex.changes_of_dropped h]
    rfl
  | some target =>
    obtain ⟨language, hlang⟩ := RepoIndex.importingLanguage?_of_resolve? h
    rw [RepoIndex.changes, h, hlang]
    exact graph_link index reference.fromFile language target builder

/-- What a builder is told. -/
inductive Step where
  | file (file : SourceFile)
  | reference (reference : Reference)

def Step.reference? : Step → Option Reference
  | .file _ => none
  | .reference told => some told

def Step.changes (index : RepoIndex) : Step → List Change
  | .file told => [told.change]
  | .reference told => index.changes told

def step (index : RepoIndex) (builder : GraphBuilder) : Step → GraphBuilder
  | .file file => builder.addFile file
  | .reference reference => (builder.addReference index reference).1

def run (index : RepoIndex) (steps : List Step) : GraphBuilder :=
  steps.foldl (step index) {}

def references (steps : List Step) : List Reference := steps.filterMap Step.reference?

def stepsOf (files : List SourceFile) (references : List Reference) : List Step :=
  files.map .file ++ references.map .reference

theorem run_concat (index : RepoIndex) (steps : List Step) (last : Step) :
    run index (steps ++ [last]) = step index (run index steps) last :=
  List.foldl_append

theorem references_append (before after : List Step) :
    references (before ++ after) = references before ++ references after :=
  List.filterMap_append

private theorem references_stepsOf (files : List SourceFile) (told : List Reference) :
    references (stepsOf files told) = told := by
  have hfiles : references (files.map .file) = [] := by
    rw [references, List.filterMap_map, List.filterMap_eq_nil_iff]
    intro file _
    rfl
  have htold : references (told.map .reference) = told := by
    rw [references, List.filterMap_map]
    exact List.filterMap_some
  rw [stepsOf, references_append, hfiles, htold, List.nil_append]

private theorem graph_step (index : RepoIndex) (builder : GraphBuilder) (told : Step) :
    (builder.step index told).graph = (told.changes index).foldl Graph.apply builder.graph := by
  cases told with
  | file file => rfl
  | reference reference =>
    rw [step, Step.changes]
    exact graph_addReference index builder reference

/-- The graph of a run is the result of the changes that its steps make. -/
theorem graph_run (index : RepoIndex) (steps : List Step) :
    (run index steps).graph = .ofChanges (steps.flatMap (Step.changes index)) := by
  induction steps using List.reverseRecOn with
  | nil => rfl
  | append_singleton steps last ih =>
    rw [run_concat, graph_step, ih, List.flatMap_append, ofChanges_append, List.flatMap_singleton]

theorem consistent_run (index : RepoIndex) (steps : List Step) :
    (run index steps).graph.Consistent := by
  rw [graph_run]
  exact consistent_ofChanges _

end GraphBuilder

open GraphBuilder (Step stepsOf)

theorem Graph.build_eq_run (index : RepoIndex) (files : List SourceFile)
    (references : List Reference) :
    Graph.build index files references =
      (GraphBuilder.run index (stepsOf files references)).graph := by
  rw [build, GraphBuilder.run, stepsOf, List.foldl_append, List.foldl_map, List.foldl_map]
  rfl

private theorem RepoIndex.history_eq (index : RepoIndex) (files : List SourceFile)
    (references : List Reference) :
    index.history files references = (stepsOf files references).flatMap (Step.changes index) := by
  rw [history, stepsOf, List.flatMap_append, List.flatMap_map, List.flatMap_map,
    List.map_eq_flatMap]
  rfl

/-- A built graph is the result of the changes that its files and references make. -/
theorem Graph.build_eq_ofChanges (index : RepoIndex) (files : List SourceFile)
    (references : List Reference) :
    Graph.build index files references = .ofChanges (index.history files references) := by
  rw [build_eq_run, GraphBuilder.graph_run, RepoIndex.history_eq]

namespace RepoIndex

private theorem introduced_changes (index : RepoIndex) (reference : Reference) (id : String) :
    introduced (index.changes reference) id =
      ((index.targetId? reference).isSome && reference.fromFile == id ||
        index.targetId? reference == some id) := by
  cases h : index.resolve? reference with
  | none => simp [changes_of_dropped h, introduced, targetId?, h]
  | some target =>
    obtain ⟨language, hchanges⟩ := changes_of_resolve? h
    simp [hchanges, introduced, Change.introduces, targetId?, h, Node.internal]

private theorem countAfter_changes (index : RepoIndex) {source target : String}
    (hne : source ≠ target) (history : List Change) (reference : Reference) :
    countAfter source target history (index.changes reference) =
      if index.pointsTo source target reference then 1 else 0 := by
  cases h : index.resolve? reference with
  | none => simp [changes_of_dropped h, countAfter, pointsTo, targetId?, h]
  | some found =>
    obtain ⟨language, hchanges⟩ := changes_of_resolve? h
    rw [hchanges]
    simp only [countAfter, Change.isReference, Bool.false_and, Bool.false_eq_true, if_false,
      Nat.zero_add, Nat.add_zero, pointsTo, targetId?, h, Option.map_some]
    by_cases hends : reference.fromFile = source ∧ found.nodeId = target
    · obtain ⟨rfl, rfl⟩ := hends
      -- Both ends were just brought in.
      simp [accepted, introduced, Change.introduces, hne, Node.internal]
    · have hno : (reference.fromFile == source && found.nodeId == target) = false := by
        simpa using hends
      simp only [hno, Bool.false_and, Bool.false_eq_true, if_false, Option.some_beq_some]

/-- Of the steps of a run, the references from one id to another are counted. -/
theorem countAfter_steps (index : RepoIndex) {source target : String} (hne : source ≠ target)
    (history : List Change) (steps : List Step) :
    countAfter source target history (steps.flatMap (Step.changes index)) =
      (GraphBuilder.references steps).countP (index.pointsTo source target) := by
  induction steps generalizing history with
  | nil => rfl
  | cons told steps ih =>
    rw [List.flatMap_cons, countAfter_append, ih]
    cases told with
    | file file =>
      change 0 + _ = _
      rw [Nat.zero_add]
      rfl
    | reference reference =>
      change countAfter source target history (index.changes reference) + _ =
        (reference :: GraphBuilder.references steps).countP _
      rw [countAfter_changes index hne, List.countP_cons, Nat.add_comm]

theorem countAccepted_history (index : RepoIndex) (files : List SourceFile)
    (references : List Reference) {source target : String} (hne : source ≠ target) :
    countAccepted (index.history files references) source target =
      references.countP (index.pointsTo source target) := by
  rw [countAccepted, history_eq, countAfter_steps index hne, GraphBuilder.references_stepsOf]

private theorem introduced_files (files : List SourceFile) (id : String) :
    introduced (files.map SourceFile.change) id = true ↔ ∃ file ∈ files, file.path = id := by
  rw [introduced, List.any_map, List.any_eq_true]
  simp only [Function.comp_apply, SourceFile.change, Change.introduces, Node.internal, beq_iff_eq]

private theorem introduced_flatMap_changes (index : RepoIndex) (references : List Reference)
    (id : String) :
    introduced (references.flatMap index.changes) id = true ↔
      ∃ reference ∈ references, introduced (index.changes reference) id = true := by
  rw [introduced, List.any_flatMap, List.any_eq_true]
  rfl

/-- If every reference is one of a file, the ids of a run are the paths and what the references
point at. -/
theorem introduced_history (index : RepoIndex) {files : List SourceFile}
    {references : List Reference}
    (hfrom : ∀ reference ∈ references, ∃ file ∈ files, file.path = reference.fromFile)
    (id : String) :
    introduced (index.history files references) id = true ↔
      (∃ file ∈ files, file.path = id) ∨
        ∃ reference ∈ references, index.targetId? reference = some id := by
  rw [history, introduced_append, Bool.or_eq_true, introduced_files, introduced_flatMap_changes]
  constructor
  · rintro (hfile | ⟨reference, hmem, hintro⟩)
    · exact Or.inl hfile
    · rw [introduced_changes, Bool.or_eq_true, Bool.and_eq_true, beq_iff_eq, beq_iff_eq] at hintro
      rcases hintro with ⟨-, rfl⟩ | htarget
      · exact Or.inl (hfrom reference hmem)
      · exact Or.inr ⟨reference, hmem, htarget⟩
  · rintro (hfile | ⟨reference, hmem, htarget⟩)
    · exact Or.inl hfile
    · refine Or.inr ⟨reference, hmem, ?_⟩
      rw [introduced_changes, Bool.or_eq_true, beq_iff_eq]
      exact Or.inr htarget

end RepoIndex

namespace Graph

def ShowsModule (graph : Graph) (id : String) (language : Language) : Prop :=
  ∃ node : Node, graph.node? id = some node ∧ node.kind = .internal ∧
    node.details.language = some language

theorem ShowsModule.apply {graph : Graph} {id : String} {language : Language}
    (h : graph.Consistent) (hshows : graph.ShowsModule id language) (change : Change) :
    (graph.apply change).ShowsModule id language := by
  obtain ⟨known, hknown, hkind, hlang⟩ := hshows
  cases change with
  | reference source target =>
    refine ⟨known, ?_, hkind, hlang⟩
    rw [Graph.apply, node?_addReference, hknown]
  | upsert node =>
    by_cases hid : node.id = id
    · subst hid
      refine ⟨absorb node (some known), ?_, hkind, ?_⟩
      · rw [Graph.apply, node?_upsert h, if_pos rfl, hknown]
      · rw [absorb, NodeDetails.merge, hlang, Option.some_or]
    · refine ⟨known, ?_, hkind, hlang⟩
      rw [Graph.apply, node?_upsert h, if_neg hid, hknown]

private theorem showsModule_foldl {graph : Graph} {id : String} {language : Language}
    (h : graph.Consistent) (hshows : graph.ShowsModule id language) (changes : List Change) :
    (changes.foldl Graph.apply graph).ShowsModule id language :=
  (foldl_apply_induction (P := (·.ShowsModule id language))
    (fun _ change h hshows => hshows.apply h change) changes h hshows).2

private theorem showsModule_upsert_of_not_contains {graph : Graph} {id : String}
    (language : Language) (h : graph.Consistent) (hnew : graph.contains id = false) :
    (graph.upsert (.internal id (some language))).1.ShowsModule id language := by
  have hnone : graph.node? id = none := by
    rw [node?, Std.HashMap.getElem?_eq_none_of_contains_eq_false hnew]
    rfl
  refine ⟨.internal id (some language), ?_, rfl, rfl⟩
  rw [node?_upsert h]
  simp only [Node.internal, if_true, hnone, absorb]

/-- The first node of an id is that of its file, so a built graph shows every file as a module of
its language. -/
theorem showsModule_history (index : RepoIndex) {files : List SourceFile}
    (references : List Reference) (hnodup : (files.map (·.path)).Nodup) {file : SourceFile}
    (hfile : file ∈ files) :
    (ofChanges (index.history files references)).ShowsModule file.path file.language := by
  obtain ⟨before, after, rfl⟩ := List.append_of_mem hfile
  have hnew : (ofChanges (before.map SourceFile.change)).contains file.path = false := by
    rw [contains_ofChanges, ← Bool.not_eq_true, RepoIndex.introduced_files]
    rintro ⟨other, hother, hpath⟩
    rw [List.map_append, List.map_cons, List.nodup_append] at hnodup
    exact hnodup.2.2 _ (List.mem_map_of_mem hother) _ List.mem_cons_self hpath
  rw [RepoIndex.history, List.map_append, List.append_assoc, ofChanges_append, List.map_cons,
    List.cons_append, List.foldl_cons]
  have hconsistent := consistent_ofChanges (before.map SourceFile.change)
  exact showsModule_foldl (hconsistent.apply file.change)
    (showsModule_upsert_of_not_contains file.language hconsistent hnew) _

end Graph

end RepoGraph
