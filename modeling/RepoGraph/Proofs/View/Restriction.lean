import RepoGraph.Proofs.View.Shape

/-!
# Restricting a view

A view is restricted by leaving out nodes, and then the edges that have lost an end. An edge stays
for the ids that are left, whichever nodes bear them, so nothing is asked of the view: its ids may
be shared and its edges may lead nowhere.
-/

namespace RepoGraph.GraphView

/-- The nodes of a view that meet a criterion, with the edges between their ids. -/
def keep (view : GraphView) (wanted : Node → Bool) : GraphView :=
  let nodes := view.nodes.filter wanted
  { view with nodes, edges := edgesBetween nodes view.edges }

private theorem restrict_only (view : GraphView) (language : Language) :
    view.restrict (.only language) = view.keep (belongsTo language) := rfl

private theorem edgesBetween_edgesBetween {few many : List Node}
    (h : few.map (·.id) ⊆ many.map (·.id)) (edges : List Edge) :
    edgesBetween few (edgesBetween many edges) = edgesBetween few edges := by
  rw [edgesBetween, edgesBetween, List.filter_filter, edgesBetween]
  apply List.filter_congr
  intro edge _
  rw [Bool.eq_iff_iff, Bool.and_eq_true, joins_idSet_iff, joins_idSet_iff]
  constructor
  · exact fun hboth => hboth.1
  · rintro ⟨hsource, htarget⟩
    exact ⟨⟨hsource, htarget⟩, h hsource, h htarget⟩

private theorem keep_keep (view : GraphView) (first second : Node → Bool) :
    (view.keep first).keep second = view.keep fun node => second node && first node := by
  have hids : ((view.nodes.filter first).filter second).map (·.id) ⊆
      (view.nodes.filter first).map (·.id) :=
    List.map_subset _ List.filter_sublist.subset
  rw [keep, keep, keep]
  dsimp only
  rw [edgesBetween_edgesBetween hids, List.filter_filter]

/-- A language family is shown as a whole. -/
theorem belongsTo_of_family_eq {a b : Language} (h : a.family = b.family) :
    belongsTo a = belongsTo b := by
  have hcompanions : a.companions = b.companions := by
    rw [Language.companions, h, Language.companions]
  funext node
  rw [belongsTo, isCompanion, hcompanions, h, belongsTo, isCompanion]

/-- Restrictions to languages leave no edge without its ends and no other edge out; they change
nothing that stays, nothing when they are made again or for another language of the family, and may
be made in any order. -/
theorem restrict_laws (view : GraphView) (a b : Language) :
    let part := view.restrict (.only a)
    (∀ edge, edge ∈ part.edges ↔ edge ∈ view.edges ∧
      edge.source ∈ part.nodes.map (·.id) ∧ edge.target ∈ part.nodes.map (·.id)) ∧
    part.restrict (.only a) = part ∧
    part.restrict (.only b) = (view.restrict (.only b)).restrict (.only a) ∧
    (a.family = b.family → part = view.restrict (.only b)) ∧
    part.nodes.Sublist view.nodes ∧ part.edges.Sublist view.edges ∧
    part.stats = view.stats := by
  intro part
  have hpart : part = view.keep (belongsTo a) := view.restrict_only a
  have hagain : part.restrict (.only a) = part := by
    rw [restrict_only, hpart, keep_keep]
    simp only [Bool.and_self]
  have hcomm : part.restrict (.only b) = (view.restrict (.only b)).restrict (.only a) := by
    rw [restrict_only, hpart, keep_keep, restrict_only, restrict_only, keep_keep]
    simp only [Bool.and_comm]
  have hfamily (h : a.family = b.family) : part = view.restrict (.only b) := by
    rw [hpart, restrict_only, belongsTo_of_family_eq h]
  exact ⟨fun _ => mem_edgesBetween, hagain, hcomm, hfamily,
    view.nodes_restrict_sublist (.only a), view.edges_restrict_sublist (.only a),
    view.stats_restrict (.only a)⟩

/-- Two files with one id, only one of them a script, and an edge to an id that no node has. -/
def sharedId : GraphView where
  nodes := [.internal "app" (some .python), .internal "app" (some .javaScript),
    .internal "page.ts" (some .typeScript)]
  edges := [⟨"app", "page.ts", 3⟩, ⟨"app", "missing", 1⟩]
  stats := ⟨3, 2, 3, 0⟩

/-- The script keeps the edge of both files with its id. -/
theorem restrict_laws_sharedId :
    Language.javaScript.family = Language.typeScript.family ∧
      sharedId.restrict (.only .javaScript) = sharedId.restrict (.only .typeScript) ∧
      ⟨"app", "page.ts", 3⟩ ∈ (sharedId.restrict (.only .javaScript)).edges ∧
      ⟨"app", "missing", 1⟩ ∉ (sharedId.restrict (.only .javaScript)).edges := by
  obtain ⟨hedges, -, -, hfamily, -⟩ := restrict_laws sharedId .javaScript .typeScript
  have hids : (sharedId.restrict (.only .javaScript)).nodes.map (·.id) = ["app", "page.ts"] := by
    decide
  refine ⟨rfl, hfamily rfl, ?_, ?_⟩
  · rw [hedges, hids]
    decide
  · rw [hedges, hids]
    decide

end RepoGraph.GraphView
