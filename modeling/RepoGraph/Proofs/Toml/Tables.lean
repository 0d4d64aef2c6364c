import Mathlib.Data.List.Nodup
import RepoGraph.Toml.Table

/-!
# Plain tables

Assignments of plain keys make a table with these entries in order, and sections with plain headers
a table of tables, as long as no key comes twice.
-/

namespace RepoGraph

namespace TomlEntries

private theorem alter?_of_notMem {key : String} {entries : TomlEntries}
    (h : key ∉ entries.map Prod.fst) (edit : Option TomlNode → Option TomlNode) :
    alter? key edit entries = (edit none).map fun node => entries ++ [(key, node)] := by
  induction entries with
  | nil => rfl
  | cons entry entries ih =>
    obtain ⟨k, node⟩ := entry
    simp only [List.map_cons, List.mem_cons, not_or] at h
    rw [alter?, if_neg (Ne.symm h.1), ih h.2]
    cases edit none with
    | none => rfl
    | some made => rfl

private theorem lookup_eq_none {key : String} {entries : TomlEntries}
    (h : key ∉ entries.map Prod.fst) :
    entries.lookup key = none := by
  rw [List.lookup_eq_none_iff]
  intro entry hentry
  rw [bne_iff_ne]
  rintro rfl
  exact h (List.mem_map_of_mem hentry)

private theorem foldlM_eq_append {add : TomlEntries → α → Option TomlEntries}
    {entryOf : α → String × TomlNode} {parts : List α} {entries : TomlEntries}
    (hadd : ∀ part ∈ parts, ∀ entries : TomlEntries, (entryOf part).1 ∉ entries.map Prod.fst →
      add entries part = some (entries ++ [entryOf part]))
    (hkeys : (entries.map Prod.fst ++ (parts.map entryOf).map Prod.fst).Nodup) :
    parts.foldlM add entries = some (entries ++ parts.map entryOf) := by
  induction parts generalizing entries with
  | nil => simp
  | cons part parts ih =>
    obtain ⟨hpart, hmore⟩ := List.forall_mem_cons.mp hadd
    have hnew : (entryOf part).1 ∉ entries.map Prod.fst := by
      rw [List.map_cons, List.map_cons, List.nodup_append] at hkeys
      intro hmem
      exact hkeys.2.2 _ hmem _ List.mem_cons_self rfl
    have hrest : ((entries ++ [entryOf part]).map Prod.fst ++
        (parts.map entryOf).map Prod.fst).Nodup := by
      simpa using hkeys
    have hstep : (part :: parts).foldlM add entries =
        parts.foldlM add (entries ++ [entryOf part]) := by
      rw [List.foldlM_cons, hpart entries hnew]
      rfl
    rw [hstep, ih hmore hrest, List.map_cons, List.append_assoc, List.singleton_append]

def plain (fields : List (String × TomlValue)) : List TomlAssignment :=
  fields.map fun field => ⟨[], field.1, field.2⟩

def ofFields (fields : List (String × TomlValue)) : TomlEntries :=
  fields.map fun field => (field.1, .value field.2)

private theorem assignAll?_plain {fields : List (String × TomlValue)}
    (h : (fields.map Prod.fst).Nodup) : assignAll? [] (plain fields) = some (ofFields fields) := by
  have hfold : (plain fields).foldlM assign? [] = some ([] ++ ofFields fields) := by
    rw [plain, List.foldlM_map]
    apply foldlM_eq_append
    · intro field _ entries hnew
      rw [assign?, descend?]
      exact alter?_of_notMem hnew _
    · rw [List.map_map]
      exact h
  exact hfold

end TomlEntries

open TomlEntries

def TomlSection.plain (group : String × List (String × TomlValue)) : TomlSection :=
  ⟨⟨[], group.1, false⟩, TomlEntries.plain group.2⟩

private theorem TomlEntries.addSection?_plain {document : TomlEntries}
    {group : String × List (String × TomlValue)} (hname : group.1 ∉ document.map Prod.fst)
    (hfields : (group.2.map Prod.fst).Nodup) :
    document.addSection? (.plain group) =
      some (document ++ [(group.1, .table .headed (ofFields group.2))]) := by
  rw [addSection?, TomlSection.plain, descend?]
  simp only [lookup_eq_none hname, assignAll?_plain hfields, Option.map_some]

private theorem TomlNode.entryValues_ofFields (fields : List (String × TomlValue)) :
    TomlNode.entryValues (ofFields fields) = fields := by
  induction fields with
  | nil => rfl
  | cons field fields ih =>
    rw [ofFields, List.map_cons, TomlNode.entryValues, TomlNode.toValue, ← ofFields, ih]

private theorem TomlNode.entryValues_tables (groups : List (String × List (String × TomlValue))) :
    TomlNode.entryValues
        (groups.map fun group => (group.1, TomlNode.table .headed (ofFields group.2))) =
      groups.map fun group => (group.1, .table group.2) := by
  induction groups with
  | nil => rfl
  | cons group groups ih =>
    rw [List.map_cons, TomlNode.entryValues, TomlNode.toValue, entryValues_ofFields, ih]
    rfl

/-- Plain sections make the table of their tables. -/
theorem TomlValue.ofSections?_plain {groups : List (String × List (String × TomlValue))}
    (hnames : (groups.map Prod.fst).Nodup)
    (hfields : ∀ group ∈ groups, (group.2.map Prod.fst).Nodup) :
    ofSections? [] (groups.map TomlSection.plain) =
      some (.table (groups.map fun group => (group.1, .table group.2))) := by
  have hfold : (groups.map TomlSection.plain).foldlM TomlEntries.addSection? [] =
      some ([] ++
        groups.map fun group => (group.1, TomlNode.table .headed (ofFields group.2))) := by
    rw [List.foldlM_map]
    apply foldlM_eq_append
    · intro group hgroup document hnew
      exact addSection?_plain hnew (hfields group hgroup)
    · rw [List.map_map]
      exact hnames
  rw [List.nil_append] at hfold
  rw [ofSections?, assignAll?, List.foldlM_nil]
  simp only [Option.pure_def, Option.bind_eq_bind, Option.bind_some, hfold,
    TomlNode.entryValues_tables]

end RepoGraph
