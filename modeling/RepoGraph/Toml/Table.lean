import RepoGraph.Toml.Value
/-!
# Building TOML tables

A document is a sequence of assignments under headers. A table may be named by several of them, and
how it first came to be says which: a table that a header named is open to no other header and to no
dotted key, one that a dotted key made only to dotted keys, and one that only stands above another
header also to one header of its own.
-/
namespace RepoGraph

/-- How a table came to be. -/
inductive TomlOrigin where
  /-- It stands above a table that a header names. -/
  | implied
  /-- A dotted key goes through it. -/
  | dotted
  | headed
  deriving DecidableEq, Repr

inductive TomlNode where
  | value (v : TomlValue)
  | table (origin : TomlOrigin) (entries : List (String × TomlNode))
  /-- An array of tables, the last one first. -/
  | tables (elements : List (List (String × TomlNode)))

abbrev TomlEntries := List (String × TomlNode)

structure TomlAssignment where
  path : List String
  key : String
  value : TomlValue

namespace TomlEntries

def alter? (key : String) (edit : Option TomlNode → Option TomlNode) :
    TomlEntries → Option TomlEntries
  | [] => (edit none).map fun node => [(key, node)]
  | (k, node) :: entries =>
    if k = key then (edit (some node)).map fun changed => (k, changed) :: entries
    else (alter? key edit entries).map ((k, node) :: ·)

/-- Edits the table at the end of a path, going through the last element of an array of tables, and
makes the tables that are missing on the way. -/
def descend? (made : TomlOrigin) (edit : TomlOrigin → TomlEntries → Option TomlEntries) :
    List String → TomlOrigin → TomlEntries → Option TomlEntries
  | [], origin, entries => edit origin entries
  | key :: path, _, entries => alter? key (fun
      | none => (descend? made edit path made []).map (.table made)
      | some (.value _) => none
      | some (.tables []) => none
      | some (.tables (last :: before)) =>
        (descend? made edit path .headed last).map fun changed => .tables (changed :: before)
      | some (.table origin inner) =>
        if made = .dotted ∧ origin = .headed then none
        else (descend? made edit path origin inner).map (.table origin)) entries

/-- Adds the value of an assignment. A dotted key ends in a table that dotted keys made, a plain key
does not. -/
def assign? (entries : TomlEntries) (assignment : TomlAssignment) : Option TomlEntries :=
  descend? .dotted (fun origin inner =>
    if (origin == .dotted) == assignment.path.isEmpty then none
    else alter? assignment.key (fun
      | none => some (.value assignment.value)
      | some _ => none) inner) assignment.path .headed entries

def assignAll? (entries : TomlEntries) (assignments : List TomlAssignment) : Option TomlEntries :=
  assignments.foldlM assign? entries

end TomlEntries

mutual

def TomlNode.toValue : TomlNode → TomlValue
  | .value v => v
  | .table _ entries => .table (TomlNode.entryValues entries)
  | .tables elements => .array (TomlNode.tableValues [] elements)

def TomlNode.entryValues : List (String × TomlNode) → List (String × TomlValue)
  | [] => []
  | (key, node) :: entries => (key, node.toValue) :: TomlNode.entryValues entries

/-- The values of the elements of an array of tables, the last one first, in front of `later`. -/
def TomlNode.tableValues (later : List TomlValue) :
    List (List (String × TomlNode)) → List TomlValue
  | [] => later
  | entries :: elements =>
    TomlNode.tableValues (.table (TomlNode.entryValues entries) :: later) elements

end

def TomlValue.inlineTable? (assignments : List TomlAssignment) : Option TomlValue :=
  (TomlEntries.assignAll? [] assignments).map fun entries => .table (TomlNode.entryValues entries)

/-- A header: the path of the table that it names, and whether that is one more element of an array
of tables. -/
structure TomlHeader where
  path : List String
  key : String
  isElement : Bool

structure TomlSection where
  header : TomlHeader
  assignments : List TomlAssignment

/-- Adds the table of a section to a document. A table that so far only stood above others moves
behind the other entries when a header names it. -/
def TomlEntries.addSection? (document : TomlEntries) (part : TomlSection) : Option TomlEntries :=
  let build := fun entries => TomlEntries.assignAll? entries part.assignments
  let key := part.header.key
  TomlEntries.descend? .implied (fun _ parent =>
    match part.header.isElement, parent.lookup key with
    | false, none => (build []).map fun entries => parent ++ [(key, .table .headed entries)]
    | false, some (.table .implied inner) => (build inner).map fun entries =>
      parent.filter (·.1 ≠ key) ++ [(key, .table .headed entries)]
    | true, _ => TomlEntries.alter? key (fun
      | none => (build []).map fun entries => .tables [entries]
      | some (.tables elements) => (build []).map fun entries => .tables (entries :: elements)
      | some _ => none) parent
    | false, some _ => none) part.header.path .headed document

def TomlValue.ofSections? (first : List TomlAssignment) (sections : List TomlSection) :
    Option TomlValue := do
  let document ← TomlEntries.assignAll? [] first
  let document ← sections.foldlM TomlEntries.addSection? document
  some (.table (TomlNode.entryValues document))

end RepoGraph
