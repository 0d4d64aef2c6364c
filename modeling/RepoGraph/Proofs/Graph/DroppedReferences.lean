import RepoGraph.Proofs.Graph.Accounts
import RepoGraph.Proofs.Graph.Packages

/-!
# References that are dropped

A reference that is dropped is counted and changes nothing else, but for one case: a file whose path
is the id of a package that it refers to. Then the node of the file is taken for that of the package.
-/

namespace RepoGraph

open RepoGraph.Graph

private theorem RepoIndex.imports_of_nodeId_eq {index : RepoIndex} {reference : Reference}
    {target : Target} (hresolve : index.resolve? reference = some target)
    (hloop : target.nodeId = reference.fromFile) :
    ∃ ecosystem package, index.Imports ecosystem package reference ∧
      ecosystem.packageId package = reference.fromFile := by
  obtain ⟨-, language, -, -, helse⟩ := resolve?_eq_some_iff.mp hresolve
  cases target with
  | internal id language =>
    have hne : (id != reference.fromFile) = true := (Bool.and_eq_true_iff.mp helse).1
    exact absurd hloop (bne_iff_ne.mp hne)
  | external ecosystem package language =>
    exact ⟨ecosystem, package, ⟨language, hresolve⟩, hloop⟩

private theorem RepoIndex.node?_withEnds {index : RepoIndex} {file id : String}
    {language : Language}
    {target : Target} {graph : Graph} (h : graph.Consistent) (hfile : id ≠ file)
    (htarget : id ≠ target.nodeId) :
    (index.withEnds file language target graph).node? id = graph.node? id := by
  rw [withEnds, node?_upsert (h.upsert _), targetNode_id, if_neg htarget.symm, node?_upsert h,
    if_neg]
  exact hfile.symm

namespace GraphBuilder

variable {index : RepoIndex} {steps : List Step} {reference : Reference}

/-- A reference that is dropped changes nothing but the number of those, unless it is one to a
package with the path of its file for an id. Then it changes no edge and no other node, and the node
of the file knows the package afterwards. -/
theorem addReference_of_dropped (h : ((run index steps).addReference index reference).2 = false) :
    let before := run index steps
    let after := (before.addReference index reference).1
    after = { before with dropped := before.dropped + 1 } ∨
      ∃ ecosystem package, index.Imports ecosystem package reference ∧
        ecosystem.packageId package = reference.fromFile ∧
        after.resolved = before.resolved ∧ after.dropped = before.dropped + 1 ∧
        after.graph.edges = before.graph.edges ∧
        (∀ id, id ≠ reference.fromFile → after.graph.node? id = before.graph.node? id) ∧
        ∃ node, after.graph.node? reference.fromFile = some node ∧
          node.details.packageName = some package := by
  intro before after
  rcases addReference_cases index before reference with
    ⟨-, hadd⟩ | ⟨target, language, hresolve, ⟨hloop, hadd⟩ | ⟨-, hadd⟩⟩
  · exact Or.inl (congrArg Prod.fst hadd)
  · obtain ⟨ecosystem, package, himports, hid⟩ := RepoIndex.imports_of_nodeId_eq hresolve hloop
    have hconsistent : before.graph.Consistent := consistent_run index steps
    have hgraph : after.graph = index.withEnds reference.fromFile language target before.graph :=
      congrArg (·.1.graph) hadd
    refine Or.inr ⟨ecosystem, package, himports, hid, congrArg (·.1.resolved) hadd,
      congrArg (·.1.dropped) hadd, ?_, ?_, ?_⟩
    · rw [hgraph, RepoIndex.edges_withEnds]
    · intro id hne
      rw [hgraph, RepoIndex.node?_withEnds hconsistent hne (hloop ▸ hne)]
    · have hlast : run index (steps ++ [.reference reference]) = after :=
        run_concat index steps (.reference reference)
      have hmem : reference ∈ references (steps ++ [.reference reference]) := by
        rw [references_append]
        exact List.mem_append_right _ List.mem_cons_self
      obtain ⟨node, hnode⟩ : ∃ node, after.graph.node? reference.fromFile = some node := by
        rw [hgraph, RepoIndex.withEnds, node?_upsert (hconsistent.upsert _),
          if_pos ((RepoIndex.targetNode_id _ _ _).trans hloop)]
        exact ⟨_, rfl⟩
      refine ⟨node, hnode, ?_⟩
      rw [← hlast, ← hid] at hnode
      exact packageName_run hnode hmem himports
  · rw [hadd] at h
    cases h

def includesItself : Reference := ⟨"system:stdio.h", "system:stdio.h", .includes, 1⟩

private theorem resolve?_includesItself : namesakeIndex.resolve? includesItself = none := by
  have hwritten : includesItself.written = "system:stdio.h" := by decide
  have hcontains : namesakeIndex.contains "system:stdio.h" = true := by
    rw [namesakeIndex_eq, RepoIndex.contains_addFile, beq_self_eq_true, Bool.true_or]
  have hheader : Importer.header? ⟨namesakeIndex, "system:stdio.h", .c, .includes⟩
      "system:stdio.h" = some "system:stdio.h" := by
    have hdir : Path.parent "system:stdio.h" = "" := by decide
    have hpath : Path.normalize? (Path.join "" "system:stdio.h") = some "system:stdio.h" := by
      decide
    simp [Importer.header?, Importer.searchFrom?, Importer.dir, hdir, hpath, hcontains]
  have hbracketed : Importer.bracketed? "system:stdio.h" = none := by decide
  rw [RepoIndex.resolve?_of_importing (by decide) importingLanguage?_namesakeIndex.1, hwritten,
    Importer.target?]
  dsimp only [includesItself]
  rw [Importer.cFamily?, hbracketed]
  dsimp only
  rw [hheader]
  simp [Importer.internal, RepoIndex.isElsewhere]

private theorem graph_addReference_includesStdio_ne :
    ((run namesakeIndex [.file namesakeHeader]).addReference namesakeIndex
        (includesStdio "system:stdio.h")).1.graph ≠
      (run namesakeIndex [.file namesakeHeader]).graph := by
  intro hsame
  have hresolve := resolve?_includesStdio importingLanguage?_namesakeIndex.1
  have hbefore : (run namesakeIndex [.file namesakeHeader]).graph.node?
      (Ecosystem.system.packageId "stdio.h") = some (.internal "system:stdio.h" (some .c)) := by
    rw [node?_run]
    decide
  have hafter : (run namesakeIndex [.file namesakeHeader,
      .reference (includesStdio "system:stdio.h")]).graph =
        (run namesakeIndex [.file namesakeHeader]).graph := hsame
  rw [← hafter] at hbefore
  have hname := packageName_run hbefore List.mem_cons_self ⟨_, hresolve⟩
  cases hname

private theorem addReference_includesStdio_dropped :
    ((run namesakeIndex [.file namesakeHeader]).addReference namesakeIndex
      (includesStdio "system:stdio.h")).2 = false :=
  (addReference_snd (resolve?_includesStdio importingLanguage?_namesakeIndex.1) _).trans (by decide)

/-- An include of the header by its own path is dropped without a trace. Its include of the system
header that it is named after is dropped too, and leaves that name on its node. -/
theorem addReference_of_dropped_itself :
    let before := run namesakeIndex [.file namesakeHeader]
    let itself := before.addReference namesakeIndex includesItself
    let namesake := before.addReference namesakeIndex (includesStdio "system:stdio.h")
    (itself.2 = false ∧ itself.1 = { before with dropped := before.dropped + 1 }) ∧
      namesake.2 = false ∧ namesake.1.graph.edges = before.graph.edges ∧
        ∃ node, namesake.1.graph.node? "system:stdio.h" = some node ∧
          node.details.packageName = some "stdio.h" := by
  intro before itself namesake
  have hdropped : itself.2 = false := by
    change (before.addReference namesakeIndex includesItself).2 = false
    rw [addReference, resolve?_includesItself]
    rfl
  refine ⟨⟨hdropped, ?_⟩, addReference_includesStdio_dropped, ?_⟩
  · rcases addReference_of_dropped hdropped with hsame | ⟨ecosystem, package, ⟨language, h⟩, -⟩
    · exact hsame
    · rw [resolve?_includesItself] at h
      cases h
  · rcases addReference_of_dropped addReference_includesStdio_dropped with
      hsame | ⟨ecosystem, package, ⟨language, himports⟩, -, -, -, hedges, -, node, hnode, hname⟩
    · exact absurd (congrArg (·.graph) hsame) graph_addReference_includesStdio_ne
    · rw [resolve?_includesStdio importingLanguage?_namesakeIndex.1] at himports
      cases himports
      exact ⟨hedges, node, hnode, hname⟩

/-- The include of the header that it is named after is dropped, but the graph is another one
afterwards. -/
theorem addReference_names_file :
    let before := run namesakeIndex [.file namesakeHeader]
    let call := before.addReference namesakeIndex (includesStdio "system:stdio.h")
    call.2 = false ∧ call.1.graph ≠ before.graph :=
  ⟨addReference_includesStdio_dropped, graph_addReference_includesStdio_ne⟩

end GraphBuilder

end RepoGraph
