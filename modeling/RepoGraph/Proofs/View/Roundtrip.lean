import RepoGraph.Proofs.Json.Roundtrip
import RepoGraph.View.Json

/-!
# Views are read back from their texts

A record is written as the list of its fields without those left out, and reading the record finds
each field where its name is, so every part of a view is read back from its JSON.
-/

namespace RepoGraph

namespace JsonValue

/-- The object of the fields of a record that are not left out. -/
def ofFields (fields : List (String × Option JsonValue)) : JsonValue :=
  ofMembers (fields.filterMap fun (name, value) => value.map (name, ·))

private theorem valuesAt_ofFields_cons (name field : String) (value : Option JsonValue)
    (fields : List (String × Option JsonValue)) :
    (ofFields ((field, value) :: fields)).valuesAt name =
      (if field = name then value.toList else []) ++ (ofFields fields).valuesAt name := by
  cases value with
  | none => simp [ofFields, ofMembers, valuesAt]
  | some v => by_cases h : field = name <;> simp [ofFields, ofMembers, valuesAt, h]

private theorem valuesAt_ofFields_of_notMem {name : String}
    {fields : List (String × Option JsonValue)}
    (h : name ∉ fields.map Prod.fst) : (ofFields fields).valuesAt name = [] := by
  induction fields with
  | nil => rfl
  | cons f fields ih =>
    rw [List.map_cons, List.mem_cons, not_or] at h
    rw [valuesAt_ofFields_cons, if_neg (Ne.symm h.1), ih h.2, List.append_nil]

private theorem valuesAt_ofFields {fields : List (String × Option JsonValue)}
    (hnodup : (fields.map Prod.fst).Nodup) {f : String × Option JsonValue} (hf : f ∈ fields) :
    (ofFields fields).valuesAt f.1 = f.2.toList := by
  induction fields with
  | nil => cases hf
  | cons g fields ih =>
    obtain ⟨hg, hrest⟩ := List.nodup_cons.mp hnodup
    rw [valuesAt_ofFields_cons]
    rcases List.mem_cons.mp hf with rfl | hmem
    · rw [if_pos rfl, valuesAt_ofFields_of_notMem hg, List.append_nil]
    · have hne : g.1 ≠ f.1 := fun heq => hg (heq ▸ List.mem_map_of_mem hmem)
      rw [if_neg hne, ih hrest hmem, List.nil_append]

private theorem mapM_eq_some_map {α β γ : Type} {f : β → Option γ} {g : α → β} {h : α → γ}
    {l : List α} (hf : ∀ a ∈ l, f (g a) = some (h a)) : (l.map g).mapM f = some (l.map h) := by
  induction l with
  | nil => rfl
  | cons a l ih =>
    obtain ⟨ha, hl⟩ := List.forall_mem_cons.mp hf
    rw [List.map_cons, List.mapM_cons, ha, ih hl]
    rfl

private theorem fields?_ofFields (fields : List (String × Option JsonValue))
    (hnodup : (fields.map Prod.fst).Nodup) :
    (ofFields fields).fields? (fields.map Prod.fst) = some (fields.map Prod.snd) := by
  have hfield : ∀ f ∈ fields, (ofFields fields).field? f.1 = some f.2 := by
    intro f hf
    rw [field?, valuesAt_ofFields hnodup hf]
    cases f.2 <;> rfl
  have hnames : (fields.filterMap fun f => f.2.map (f.1, ·)).all
      (fun m => (some m.1).isSome) = true :=
    List.all_eq_true.mpr fun _ _ => rfl
  rw [← mapM_eq_some_map hfield]
  exact if_pos (List.all_map.trans hnames)

private theorem isPlain_ofFields (fields : List (String × Option JsonValue))
    (h : ∀ f ∈ fields, ∀ value ∈ f.2, value.IsPlain) : (ofFields fields).IsPlain := by
  refine .object ?_ ?_
  · intro m hm
    obtain ⟨_, _, rfl⟩ := List.mem_map.mp hm
    rfl
  · intro m hm
    obtain ⟨_, hmember, rfl⟩ := List.mem_map.mp hm
    obtain ⟨f, hf, hsome⟩ := List.mem_filterMap.mp hmember
    obtain ⟨value, hvalue, rfl⟩ := Option.map_eq_some_iff.mp hsome
    exact h f hf value hvalue

@[simp] theorem text?_ofString (s : String) : (ofString s).text? = some s := rfl

@[simp] theorem choice?_ofString (s : String) : (ofString s).choice? = some s := rfl

@[simp] theorem word32?_ofNat (n : UInt32) : (ofNat n.toNat).word32? = some n := by
  have hsize : decide (n.toNat < UInt32.size) = true := decide_eq_true n.toNat_lt_size
  simp only [word32?, ofNat, natural?, Numeral.natural?_ofNat, Option.filter_some, hsize, if_true,
    Option.map_some, UInt32.ofNat_toNat]

@[simp] theorem word64?_ofNat (n : UInt64) : (ofNat n.toNat).word64? = some n := by
  have hsize : decide (n.toNat < UInt64.size) = true := decide_eq_true n.toNat_lt_size
  simp only [word64?, ofNat, natural?, Numeral.natural?_ofNat, Option.filter_some, hsize, if_true,
    Option.map_some, UInt64.ofNat_toNat]

private theorem list?_array {α : Type} {read : JsonValue → Option α} {write : α → JsonValue}
    {l : List α}
    (h : ∀ a ∈ l, read (write a) = some a) : (array (l.map write)).list? read = some l := by
  have hread := mapM_eq_some_map (h := id) h
  rw [List.map_id] at hread
  exact hread

private theorem isPlain_array {α : Type} {write : α → JsonValue} (h : ∀ a, (write a).IsPlain)
    (l : List α) : (array (l.map write)).IsPlain := by
  refine .array ?_
  intro item hitem
  obtain ⟨a, _, rfl⟩ := List.mem_map.mp hitem
  exact h a

private theorem isPlain_map {α : Type} {write : α → JsonValue} (h : ∀ a, (write a).IsPlain)
    (a : Option α) : ∀ value ∈ a.map write, value.IsPlain := by
  intro value hvalue
  obtain ⟨a, _, rfl⟩ := Option.map_eq_some_iff.mp hvalue
  exact h a

@[simp] theorem optional?_map_ofString (s : Option String) :
    optional? text? (s.map ofString) = some s := by
  cases s <;> rfl

end JsonValue

open JsonValue

theorem Language.ofName?_name (language : Language) : ofName? language.name = some language := by
  cases language <;> decide

@[simp] theorem Language.optional?_map_toJson (language : Option Language) :
    optional? ofJson? (language.map toJson) = some language := by
  cases language with
  | none => rfl
  | some l => exact congrArg (Option.map some) (ofName?_name l)

@[simp] theorem NodeKind.ofName?_name (kind : NodeKind) : ofName? kind.name = some kind := by
  cases kind <;> rfl

namespace NodeDetails

def fields (details : NodeDetails) : List (String × Option JsonValue) :=
  [("language", details.language.map Language.toJson),
    ("packageManager", details.packageManager.map ofString),
    ("packageName", details.packageName.map ofString),
    ("packageVersion", details.packageVersion.map ofString)]

private theorem toJson_eq (details : NodeDetails) : details.toJson = ofFields details.fields := by
  obtain ⟨language, manager, name, version⟩ := details
  cases language <;> cases manager <;> cases name <;> cases version <;> rfl

private theorem ofJson?_toJson (details : NodeDetails) : ofJson? details.toJson = some details := by
  have hfields := fields?_ofFields details.fields (by simp [fields])
  rw [← toJson_eq] at hfields
  simp only [fields, List.map_cons, List.map_nil] at hfields
  simp [ofJson?, hfields]

private theorem isPlain_toJson (details : NodeDetails) : details.toJson.IsPlain := by
  rw [toJson_eq]
  apply isPlain_ofFields
  simp only [fields, List.forall_mem_cons]
  exact ⟨isPlain_map (fun l : Language => .ofString l.name) _, isPlain_map .ofString _,
    isPlain_map .ofString _, isPlain_map .ofString _, List.forall_mem_nil _⟩

private theorem eq_of_isEmpty {details : NodeDetails} (h : details.isEmpty = true) :
    details = {} := by
  obtain ⟨language, manager, name, version⟩ := details
  simp_all [isEmpty]

end NodeDetails

namespace Node

def fields (node : Node) : List (String × Option JsonValue) :=
  [("id", some (.ofString node.id)), ("label", some (.ofString node.label)),
    ("type", some (.ofString node.kind.name)),
    ("meta", if node.details.isEmpty then none else some node.details.toJson)]

private theorem toJson_eq (node : Node) : node.toJson = ofFields node.fields := by
  by_cases h : node.details.isEmpty = true
  · simp [toJson, fields, ofFields, h]
  · simp [toJson, fields, ofFields, h]

private theorem ofJson?_toJson (node : Node) : ofJson? node.toJson = some node := by
  have hfields := fields?_ofFields node.fields (by simp [fields])
  rw [← toJson_eq] at hfields
  simp only [fields, List.map_cons, List.map_nil] at hfields
  obtain ⟨id, label, kind, details⟩ := node
  by_cases h : details.isEmpty = true
  · cases NodeDetails.eq_of_isEmpty h
    simp [ofJson?, hfields, h]
  · simp [ofJson?, hfields, h, NodeDetails.ofJson?_toJson]

private theorem isPlain_toJson (node : Node) : node.toJson.IsPlain := by
  rw [toJson_eq]
  apply isPlain_ofFields
  have hdetails : ∀ value ∈ (if node.details.isEmpty then none else some node.details.toJson),
      value.IsPlain := by
    intro value hvalue
    split at hvalue
    · cases hvalue
    · cases hvalue
      exact node.details.isPlain_toJson
  simp only [fields, List.forall_mem_cons, Option.mem_some_iff, forall_eq']
  exact ⟨.ofString _, .ofString _, .ofString _, hdetails, List.forall_mem_nil _⟩

end Node

namespace Edge

def fields (edge : Edge) : List (String × Option JsonValue) :=
  [("source", some (.ofString edge.source)), ("target", some (.ofString edge.target)),
    ("weight", some (.ofNat edge.weight.toNat))]

private theorem ofJson?_toJson (edge : Edge) : ofJson? edge.toJson = some edge := by
  have hfields : edge.toJson.fields? _ = _ :=
    fields?_ofFields edge.fields (by simp [fields])
  simp only [fields, List.map_cons, List.map_nil] at hfields
  simp [ofJson?, hfields]

private theorem isPlain_toJson (edge : Edge) : edge.toJson.IsPlain := by
  apply isPlain_ofFields edge.fields
  simp only [fields, List.forall_mem_cons, Option.mem_some_iff, forall_eq']
  exact ⟨.ofString _, .ofString _, .ofNat _, List.forall_mem_nil _⟩

end Edge

namespace GraphStats

def fields (stats : GraphStats) : List (String × Option JsonValue) :=
  [("nodeCount", some (.ofNat stats.nodeCount.toNat)),
    ("edgeCount", some (.ofNat stats.edgeCount.toNat)),
    ("internalNodeCount", some (.ofNat stats.internalNodeCount.toNat)),
    ("externalNodeCount", some (.ofNat stats.externalNodeCount.toNat))]

private theorem ofJson?_toJson (stats : GraphStats) : ofJson? stats.toJson = some stats := by
  have hfields : stats.toJson.fields? _ = _ :=
    fields?_ofFields stats.fields (by simp [fields])
  simp only [fields, List.map_cons, List.map_nil] at hfields
  simp [ofJson?, hfields]

private theorem isPlain_toJson (stats : GraphStats) : stats.toJson.IsPlain := by
  apply isPlain_ofFields stats.fields
  simp only [fields, List.forall_mem_cons, Option.mem_some_iff, forall_eq']
  exact ⟨.ofNat _, .ofNat _, .ofNat _, .ofNat _, List.forall_mem_nil _⟩

end GraphStats

namespace GraphView

def fields (view : GraphView) : List (String × Option JsonValue) :=
  [("nodes", some (.array (view.nodes.map Node.toJson))),
    ("edges", some (.array (view.edges.map Edge.toJson))), ("stats", some view.stats.toJson)]

private theorem ofJson?_toJson (view : GraphView) : ofJson? view.toJson = some view := by
  have hfields : view.toJson.fields? _ = _ :=
    fields?_ofFields view.fields (by simp [fields])
  have hnodes := list?_array (l := view.nodes) fun node _ => node.ofJson?_toJson
  have hedges := list?_array (l := view.edges) fun edge _ => edge.ofJson?_toJson
  simp only [fields, List.map_cons, List.map_nil] at hfields
  simp [ofJson?, hfields, hnodes, hedges, GraphStats.ofJson?_toJson]

private theorem isPlain_toJson (view : GraphView) : view.toJson.IsPlain := by
  apply isPlain_ofFields view.fields
  simp only [fields, List.forall_mem_cons, Option.mem_some_iff, forall_eq']
  exact ⟨isPlain_array Node.isPlain_toJson _, isPlain_array Edge.isPlain_toJson _,
    view.stats.isPlain_toJson, List.forall_mem_nil _⟩

theorem parse?_render (layout : JsonLayout) (view : GraphView) :
    parse? (view.render layout) = some view := by
  rw [parse?, render, JsonValue.parse?_render view.isPlain_toJson, Option.bind_some,
    ofJson?_toJson]

/-- Both texts of a view are read back as the view, so the bytes that the fingerprint hashes are
those of no other view. -/
theorem render_faithful (view : GraphView) :
    (∀ layout, parse? (view.render layout) = some view) ∧
      ∀ other : GraphView,
        (view.render .compact).toUTF8 = (other.render .compact).toUTF8 ↔ view = other := by
  refine ⟨fun layout => parse?_render layout view, fun other => ⟨fun hbytes => ?_, ?_⟩⟩
  · have htexts : view.render .compact = other.render .compact := String.toByteArray_inj.mp hbytes
    have hviews := congrArg parse? htexts
    rw [parse?_render, parse?_render] at hviews
    exact Option.some.inj hviews
  · rintro rfl
    rfl

end GraphView

end RepoGraph
