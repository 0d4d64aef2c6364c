import RepoGraph.Proofs.Graph.Build
import RepoGraph.Proofs.Index.Reachable

/-!
# The accounts of a builder

A builder that is told of a reference counts it on one edge, or drops it because it points nowhere or
at the node of its own file. So what it has recorded is the sum of the weights, and what it has
recorded or dropped is all that it was told of.
-/

namespace RepoGraph

open RepoGraph.Graph

private theorem sum_map_modify {α : Type} {items : List α} {i : Nat} {a : α}
    (h : items[i]? = some a) (f : α → α) (g : α → Nat) :
    ((items.modify i f).map g).sum + g a = (items.map g).sum + g (f a) := by
  induction items generalizing i with
  | nil => simp at h
  | cons item items ih =>
    cases i with
    | zero =>
      rw [List.getElem?_cons_zero, Option.some.injEq] at h
      subst h
      simp only [List.modify_zero_cons, List.map_cons, List.sum_cons]
      omega
    | succ i =>
      have hrest := ih (by simpa using h)
      simp only [List.modify_succ_cons, List.map_cons, List.sum_cons]
      omega

namespace Graph

/-- The number of references that a graph counts from one id to another. -/
def count (graph : Graph) (source target : String) : Nat :=
  (graph.weight? source target).elim 0 UInt32.toNat

def totalWeight (graph : Graph) : Nat := (graph.edges.toList.map (·.weight.toNat)).sum

/-- One edge of a graph counts one reference more than in an earlier graph, and is the only one that
changed. -/
structure Raises (before after : Graph) (source target : String) : Prop where
  raised : ∃ weight : UInt32, weight.toNat = before.count source target + 1 ∧
    ∀ edge : Edge, edge.ends = (source, target) → (edge ∈ after.edges ↔ edge.weight = weight)
  others : ∀ edge : Edge, edge.ends ≠ (source, target) → (edge ∈ after.edges ↔ edge ∈ before.edges)

variable {graph before after : Graph} {source target : String}

private theorem count_eq_of_edge? {edge : Edge} (h : graph.edge? source target = some edge) :
    graph.count source target = edge.weight.toNat := by
  rw [count, weight?, h]
  rfl

private theorem toNat_weight_heavier (hlt : graph.count source target + 1 < UInt32.size) :
    (heavier source target (graph.edge? source target)).weight.toNat =
      graph.count source target + 1 := by
  cases hedge : graph.edge? source target with
  | none =>
    rw [count, weight?, hedge]
    rfl
  | some edge =>
    rw [count_eq_of_edge? hedge] at hlt ⊢
    rw [heavier, UInt32.toNat_add]
    exact Nat.mod_eq_of_lt hlt

private theorem ends_heavier (h : graph.Consistent) :
    (heavier source target (graph.edge? source target)).ends = (source, target) := by
  cases hedge : graph.edge? source target with
  | none => rfl
  | some edge =>
    obtain ⟨-, rfl, rfl⟩ := h.edge?_eq_some_iff.mp hedge
    rfl

private theorem Consistent.mem_edges_iff (h : graph.Consistent) {edge : Edge} :
    edge ∈ graph.edges ↔ graph.edge? edge.source edge.target = some edge := by
  rw [h.edge?_eq_some_iff, and_iff_left ⟨rfl, rfl⟩]

/-- A reference that is accepted raises the edge between its ends. -/
theorem raises_addReference (h : graph.Consistent) (ha : graph.Accepts source target)
    (hlt : graph.count source target + 1 < UInt32.size) :
    graph.Raises (graph.addReference source target).1 source target where
  raised := by
    refine ⟨_, toNat_weight_heavier hlt, ?_⟩
    intro edge hends
    have hheavier : (heavier source target (graph.edge? source target)).ends = edge.ends :=
      (ends_heavier h).trans hends.symm
    obtain ⟨rfl, rfl⟩ := Prod.mk.inj hends
    rw [(h.addReference _ _).mem_edges_iff, edge?_addReference h ha, if_pos ⟨rfl, rfl⟩,
      Option.some.injEq]
    constructor
    · intro heq
      exact (congrArg Edge.weight heq).symm
    · intro hweight
      exact Edge.eq_of_ends hheavier hweight.symm
  others := by
    intro edge hends
    rw [(h.addReference source target).mem_edges_iff, edge?_addReference h ha, h.mem_edges_iff]
    rw [if_neg]
    rintro ⟨rfl, rfl⟩
    exact hends rfl

theorem Raises.source_ne_target (hraises : before.Raises after source target)
    (h : after.Consistent) : source ≠ target := by
  obtain ⟨weight, -, hedge⟩ := hraises.raised
  exact (h.joined _ ((hedge ⟨source, target, weight⟩ rfl).mpr rfl)).1

private theorem totalWeight_addReference (h : graph.Consistent) (ha : graph.Accepts source target)
    (hlt : graph.count source target + 1 < UInt32.size) :
    (graph.addReference source target).1.totalWeight = graph.totalWeight + 1 := by
  rw [addReference_of_accepts ha]
  split
  · rename_i i hi
    obtain ⟨edge, hedge, -⟩ := h.edges.item_of_position hi
    have hfound : graph.edge? source target = some edge := by
      rw [edge?, hi]
      exact hedge
    have hraised : (edge.weight + 1).toNat = edge.weight.toNat + 1 := by
      have := toNat_weight_heavier hlt
      rwa [hfound, count_eq_of_edge? hfound] at this
    have hget : graph.edges.toList[i]? = some edge := by simpa using hedge
    have hsum := sum_map_modify hget (fun edge => { edge with weight := edge.weight + 1 })
      (·.weight.toNat)
    dsimp only at hsum
    rw [hraised] at hsum
    rw [totalWeight, totalWeight, Array.toList_modify]
    omega
  · rw [totalWeight, totalWeight, Array.toList_push, List.map_append, List.sum_append]
    rfl

end Graph

namespace RepoIndex

def withEnds (index : RepoIndex) (file : String) (language : Language) (target : Target)
    (graph : Graph) : Graph :=
  ((graph.upsert (.internal file (some language))).1.upsert (index.targetNode file target)).1

variable (index : RepoIndex) (file : String) (language : Language) (target : Target)

@[simp] theorem edges_withEnds (graph : Graph) :
    (index.withEnds file language target graph).edges = graph.edges := by
  rw [withEnds, edges_upsert, edges_upsert]

@[simp] theorem totalWeight_withEnds (graph : Graph) :
    (index.withEnds file language target graph).totalWeight = graph.totalWeight := by
  rw [totalWeight, edges_withEnds, totalWeight]

@[simp] theorem count_withEnds (graph : Graph) (source other : String) :
    (index.withEnds file language target graph).count source other = graph.count source other := by
  rw [count, withEnds, weight?_upsert, weight?_upsert, count]

private theorem consistent_withEnds {graph : Graph} (h : graph.Consistent) :
    (index.withEnds file language target graph).Consistent :=
  (h.upsert _).upsert _

private theorem accepts_withEnds (graph : Graph) :
    (index.withEnds file language target graph).Accepts file target.nodeId ↔
      file ≠ target.nodeId := by
  have hfile : (index.withEnds file language target graph).contains file = true := by
    simp [withEnds, contains_upsert, Node.internal]
  have htarget : (index.withEnds file language target graph).contains target.nodeId = true := by
    simp [withEnds, contains_upsert]
  rw [Accepts, hfile, htarget, and_iff_left ⟨rfl, rfl⟩]

end RepoIndex

namespace GraphBuilder

private theorem link_of_loop (index : RepoIndex) {file : String} (language : Language)
    {target : Target} (builder : GraphBuilder) (h : target.nodeId = file) :
    builder.link index file language target =
      ({ builder with
          graph := index.withEnds file language target builder.graph
          dropped := builder.dropped + 1 }, false) := by
  have hrefused := addReference_of_not_accepts
    (mt (index.accepts_withEnds file language target builder.graph).mp fun hne => hne h.symm)
  obtain ⟨graph, resolved, dropped⟩ := builder
  rw [RepoIndex.withEnds] at hrefused
  rw [link]
  dsimp only
  rw [hrefused]
  rfl

private theorem link_of_ne (index : RepoIndex) {file : String} (language : Language)
    {target : Target} (builder : GraphBuilder) (h : target.nodeId ≠ file) :
    builder.link index file language target =
      ({ builder with
          graph := ((index.withEnds file language target builder.graph).addReference file
            target.nodeId).1
          resolved := builder.resolved + 1 }, true) := by
  have haccepts := (index.accepts_withEnds file language target builder.graph).mpr h.symm
  obtain ⟨i, hi⟩ := Option.isSome_iff_exists.mp ((addReference_isSome_iff _ _ _).mpr haccepts)
  obtain ⟨graph, resolved, dropped⟩ := builder
  rw [RepoIndex.withEnds] at hi ⊢
  rw [link]
  dsimp only
  split
  · rename_i hadd
    rw [hadd]
  · rename_i hadd
    rw [hadd] at hi
    cases hi

/-- A reference points nowhere and is dropped, or at the node of its own file and is dropped after
that was brought in, or it is counted. -/
theorem addReference_cases (index : RepoIndex) (builder : GraphBuilder) (reference : Reference) :
    (index.resolve? reference = none ∧
      builder.addReference index reference =
        ({ builder with dropped := builder.dropped + 1 }, false)) ∨
    ∃ target language, index.resolve? reference = some target ∧
      ((target.nodeId = reference.fromFile ∧
        builder.addReference index reference =
          ({ builder with
              graph := index.withEnds reference.fromFile language target builder.graph
              dropped := builder.dropped + 1 }, false)) ∨
      (target.nodeId ≠ reference.fromFile ∧
        builder.addReference index reference =
          ({ builder with
              graph := ((index.withEnds reference.fromFile language target
                builder.graph).addReference reference.fromFile target.nodeId).1
              resolved := builder.resolved + 1 }, true))) := by
  rw [addReference]
  cases h : index.resolve? reference with
  | none => exact Or.inl ⟨rfl, rfl⟩
  | some target =>
    obtain ⟨language, hlanguage⟩ := RepoIndex.importingLanguage?_of_resolve? h
    rw [hlanguage]
    dsimp only
    refine Or.inr ⟨target, language, rfl, ?_⟩
    by_cases hloop : target.nodeId = reference.fromFile
    · exact Or.inl ⟨hloop, link_of_loop index language builder hloop⟩
    · exact Or.inr ⟨hloop, link_of_ne index language builder hloop⟩

/-- A reference that points somewhere is recorded unless it points at the node of its own file. -/
theorem addReference_snd {index : RepoIndex} {reference : Reference} {target : Target}
    (h : index.resolve? reference = some target) (builder : GraphBuilder) :
    (builder.addReference index reference).2 = (target.nodeId != reference.fromFile) := by
  rcases addReference_cases index builder reference with
    ⟨hnone, -⟩ | ⟨found, language, hfound, ⟨hloop, hadd⟩ | ⟨hne, hadd⟩⟩
  · rw [h] at hnone
    cases hnone
  · obtain rfl : target = found := Option.some.inj (h.symm.trans hfound)
    rw [hadd, hloop, bne_self_eq_false]
  · obtain rfl : target = found := Option.some.inj (h.symm.trans hfound)
    rw [hadd, eq_comm, bne_iff_ne]
    exact hne

/-- A run counts from one id to another the references that point that way. -/
theorem count_run {index : RepoIndex} {steps : List Step} {source target : String}
    (hne : source ≠ target)
    (hlt : (references steps).countP (index.pointsTo source target) < UInt32.size) :
    (run index steps).graph.count source target =
      (references steps).countP (index.pointsTo source target) := by
  have hcount : countAccepted (steps.flatMap (Step.changes index)) source target =
      (references steps).countP (index.pointsTo source target) :=
    RepoIndex.countAfter_steps index hne [] steps
  rw [← hcount] at hlt
  rw [graph_run, ← hcount]
  exact weight?_toNat_ofChanges hlt

private theorem count_run_add_one_lt {index : RepoIndex} {steps : List Step} {reference : Reference}
    {target : Target} (hresolve : index.resolve? reference = some target)
    (hne : target.nodeId ≠ reference.fromFile)
    (hlt : (references (steps ++ [.reference reference])).countP
      (index.pointsTo reference.fromFile target.nodeId) < UInt32.size) :
    (run index steps).graph.count reference.fromFile target.nodeId + 1 < UInt32.size := by
  have hpoints : index.pointsTo reference.fromFile target.nodeId reference = true := by
    simp [RepoIndex.pointsTo, RepoIndex.targetId?, hresolve]
  have hone : (references [.reference reference]).countP
      (index.pointsTo reference.fromFile target.nodeId) = 1 := by
    change [reference].countP _ = 1
    rw [List.countP_singleton, if_pos hpoints]
  rw [references_append, List.countP_append, hone] at hlt
  rwa [count_run hne.symm (by omega)]

/-- Whether no pair of different ids has too many references of one to the other for a weight. -/
def FitsWeights (index : RepoIndex) (steps : List Step) : Prop :=
  ∀ source target, source ≠ target →
    (references steps).countP (index.pointsTo source target) < UInt32.size

private theorem FitsWeights.of_isPrefix {index : RepoIndex} {before steps : List Step}
    (h : FitsWeights index steps) (hbefore : before <+: steps) : FitsWeights index before := by
  intro source target hne
  have hle : (references before).countP (index.pointsTo source target) ≤
      (references steps).countP (index.pointsTo source target) :=
    (hbefore.filterMap _).sublist.countP_le
  exact Nat.lt_of_le_of_lt hle (h source target hne)

/-- A run of fewer references than a weight can count has room for all of them. -/
theorem fitsWeights_of_length {steps : List Step} (index : RepoIndex)
    (h : (references steps).length < UInt32.size) : FitsWeights index steps :=
  fun _ _ _ => Nat.lt_of_le_of_lt List.countP_le_length h

/-- What is recorded is on the edges, and what is not is dropped. -/
theorem resolved_run {index : RepoIndex} {steps : List Step} (h : FitsWeights index steps) :
    (run index steps).resolved = (run index steps).graph.totalWeight ∧
      (run index steps).resolved + (run index steps).dropped = (references steps).length := by
  induction steps using List.reverseRecOn with
  | nil => exact ⟨rfl, rfl⟩
  | append_singleton steps last ih =>
    obtain ⟨hresolved, hall⟩ := ih (h.of_isPrefix (List.prefix_append _ _))
    rw [run_concat, references_append]
    cases last with
    | file file =>
      have hedges : ((run index steps).step index (.file file)).graph.edges =
          (run index steps).graph.edges := edges_upsert _ _
      have hnone : references [Step.file file] = [] := rfl
      rw [totalWeight, hedges, hnone, List.append_nil]
      exact ⟨hresolved, hall⟩
    | reference reference =>
      have hlength : (references steps ++ references [.reference reference]).length =
          (references steps).length + 1 := List.length_append
      rw [hlength, ← hall, step]
      rcases addReference_cases index (run index steps) reference with
        ⟨-, hadd⟩ | ⟨target, language, hresolve, ⟨-, hadd⟩ | ⟨hne, hadd⟩⟩
      · rw [hadd]
        exact ⟨hresolved, rfl⟩
      · rw [hadd]
        dsimp only
        rw [RepoIndex.totalWeight_withEnds]
        exact ⟨hresolved, rfl⟩
      · have hlt := count_run_add_one_lt hresolve hne (h _ _ hne.symm)
        rw [hadd]
        dsimp only
        rw [totalWeight_addReference
          (index.consistent_withEnds _ language target (consistent_run index steps))
          ((index.accepts_withEnds _ _ _ _).mpr hne.symm) (by rwa [RepoIndex.count_withEnds]),
          RepoIndex.totalWeight_withEnds, hresolved]
        exact ⟨rfl, by omega⟩

/-- A reference is recorded exactly if it raises one edge, from its file to what it points at. -/
theorem addReference_snd_iff_raises {index : RepoIndex} {steps : List Step} {reference : Reference}
    (h : FitsWeights index (steps ++ [.reference reference])) :
    ((run index steps).addReference index reference).2 = true ↔
      ∃ target, index.resolve? reference = some target ∧
        (run index steps).graph.Raises ((run index steps).addReference index reference).1.graph
          reference.fromFile target.nodeId := by
  have hconsistent := consistent_run index steps
  rcases addReference_cases index (run index steps) reference with
    ⟨hnowhere, hadd⟩ | ⟨target, language, hresolve, ⟨hloop, hadd⟩ | ⟨hne, hadd⟩⟩
  · rw [hadd, hnowhere]
    simp
  · rw [hadd]
    refine iff_of_false Bool.false_ne_true ?_
    rintro ⟨other, hother, hraises⟩
    obtain rfl : target = other := Option.some.inj (hresolve.symm.trans hother)
    exact hraises.source_ne_target (index.consistent_withEnds _ language target hconsistent)
      hloop.symm
  · rw [hadd]
    refine iff_of_true rfl ⟨target, hresolve, ?_⟩
    have hlt := count_run_add_one_lt hresolve hne (h _ _ hne.symm)
    have hraises := raises_addReference
      (index.consistent_withEnds reference.fromFile language target hconsistent)
      ((index.accepts_withEnds _ _ _ _).mpr hne.symm) (by rwa [RepoIndex.count_withEnds])
    refine ⟨?_, ?_⟩
    · rw [← index.count_withEnds reference.fromFile language target]
      exact hraises.raised
    · intro edge hends
      rw [hraises.others edge hends, RepoIndex.edges_withEnds]

private theorem edges_addReference_of_dropped {index : RepoIndex} {builder : GraphBuilder}
    {reference : Reference} (h : (builder.addReference index reference).2 = false) :
    (builder.addReference index reference).1.graph.edges = builder.graph.edges := by
  rcases addReference_cases index builder reference with
    ⟨-, hadd⟩ | ⟨target, language, -, ⟨-, hadd⟩ | ⟨-, hadd⟩⟩
  · rw [hadd]
  · rw [hadd, RepoIndex.edges_withEnds]
  · rw [hadd] at h
    cases h

/-- In every run, what is recorded is the sum of all weights, what is recorded or dropped is all
references that the builder was told of, and each of them is recorded exactly if it raises one edge
by one, from its file to what it points at. A reference that is not recorded changes no edge. -/
theorem accounts_balance {index : RepoIndex} {steps : List Step} (h : FitsWeights index steps) :
    (run index steps).resolved =
        ((run index steps).graph.edges.toList.map (·.weight.toNat)).sum ∧
      (run index steps).resolved + (run index steps).dropped = (references steps).length ∧
      ∀ before reference, before ++ [.reference reference] <+: steps →
        let after := (run index before).addReference index reference
        (after.2 = true ↔ ∃ target, index.resolve? reference = some target ∧
          (run index before).graph.Raises after.1.graph reference.fromFile target.nodeId) ∧
        (after.2 = false → after.1.graph.edges = (run index before).graph.edges) := by
  obtain ⟨hresolved, hall⟩ := resolved_run h
  refine ⟨hresolved, hall, ?_⟩
  intro before reference hbefore
  exact ⟨addReference_snd_iff_raises (h.of_isPrefix hbefore), edges_addReference_of_dropped⟩

def namesakeHeader : SourceFile := ⟨"system:stdio.h", .c, "#include <stdio.h>\n"⟩

def namesakeIndex : RepoIndex := .build [namesakeHeader] []

def includesStdio (file : String) : Reference := ⟨file, "<stdio.h>", .includes, 1⟩

theorem namesakeIndex_eq : namesakeIndex = ({} : RepoIndex).addFile "system:stdio.h" .c := rfl

private theorem findBySuffix?_namesakeIndex : namesakeIndex.findBySuffix? "stdio.h" = none := by
  have hname : (Path.fileName "system:stdio.h" == Path.fileName "stdio.h") = false := by decide
  have hnamed : namesakeIndex.named.getD (Path.fileName "stdio.h") [] = [] := by
    rw [namesakeIndex_eq, RepoIndex.named_addFile, hname, if_neg Bool.false_ne_true]
    exact Std.HashMap.getD_empty
  exact congrArg (List.find? _) hnamed

theorem resolve?_includesStdio {file : String}
    (himporting : namesakeIndex.importingLanguage? file = some .c) :
    namesakeIndex.resolve? (includesStdio file) = some (.external .system "stdio.h" .c) := by
  have hwritten : (includesStdio file).written = "<stdio.h>" := by
    have htrim : String.ofList (Text.trim "<stdio.h>".toList) = "<stdio.h>" := by decide
    exact htrim
  have htarget : Importer.target? ⟨namesakeIndex, file, .c, .includes⟩ "<stdio.h>" =
      some (.external .system "stdio.h" .c) := by
    have hbracketed : Importer.bracketed? "<stdio.h>" = some "stdio.h" := by decide
    have hpackage : Ecosystem.system.packageRoot "stdio.h" = "stdio.h" := by decide
    have hsystem : Ecosystem.ofReference .c "stdio.h" = .system := rfl
    rw [Importer.target?]
    dsimp only
    rw [Importer.cFamily?, hbracketed]
    dsimp only
    rw [findBySuffix?_namesakeIndex, Importer.external?]
    dsimp only
    rw [hsystem, hpackage, if_neg (by decide)]
  rw [RepoIndex.resolve?_of_importing (by rw [hwritten]; decide) himporting, hwritten]
  exact congrArg (Option.filter (RepoIndex.isElsewhere file)) htarget

theorem importingLanguage?_namesakeIndex :
    namesakeIndex.importingLanguage? "system:stdio.h" = some .c ∧
      namesakeIndex.importingLanguage? "main.c" = some .c := by
  have hpath : Language.ofPath? "main.c" = some .c := by decide
  constructor
  · rw [RepoIndex.importingLanguage?, namesakeIndex_eq, RepoIndex.language?_addFile,
      if_pos (by decide), Option.some_or]
  · rw [RepoIndex.importingLanguage?, namesakeIndex_eq, RepoIndex.language?_addFile,
      if_neg (by decide), RepoIndex.language?, Std.HashMap.getElem?_empty, Option.none_or, hpath]

/-- The header includes its namesake, which is dropped, and a source includes it too. -/
def namesakeSteps : List Step :=
  [.file namesakeHeader, .reference (includesStdio "system:stdio.h"),
    .reference (includesStdio "main.c")]

theorem accounts_balance_namesake :
    FitsWeights namesakeIndex namesakeSteps ∧
      (run namesakeIndex namesakeSteps).resolved + (run namesakeIndex namesakeSteps).dropped = 2 ∧
      (run namesakeIndex (namesakeSteps.take 2)).graph.Raises
        ((run namesakeIndex (namesakeSteps.take 2)).addReference namesakeIndex
          (includesStdio "main.c")).1.graph "main.c" "system:stdio.h" := by
  have hfits : FitsWeights namesakeIndex namesakeSteps := fitsWeights_of_length _ (by decide)
  have hresolve := resolve?_includesStdio importingLanguage?_namesakeIndex.2
  obtain ⟨-, hall, hcalls⟩ := accounts_balance hfits
  refine ⟨hfits, hall, ?_⟩
  have hcall := hcalls (namesakeSteps.take 2) (includesStdio "main.c") (List.prefix_refl _)
  obtain ⟨target, htarget, hraises⟩ :=
    hcall.1.mp ((addReference_snd hresolve _).trans (by decide))
  obtain rfl : _ = target := Option.some.inj (hresolve.symm.trans htarget)
  exact hraises

end GraphBuilder

end RepoGraph
