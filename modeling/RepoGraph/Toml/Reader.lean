import RepoGraph.Toml.Scalar
import RepoGraph.Toml.Table
/-!
# Reading TOML

Values are read like this: a `TomlPlace` says where the value being read will stand, a `TomlReading`
what may come next, and each step takes one word. A document is read as statements, which
`TomlValue.ofSections?` makes a table of.
-/
namespace RepoGraph
open Text Toml

/-- Where a value stands: alone, or after what was read of an array or a table in braces, last
first. -/
inductive TomlPlace where
  | top
  | item (done : List TomlValue) (outer : TomlPlace)
  | entry (done : List TomlAssignment) (path : List String) (key : String) (outer : TomlPlace)

inductive TomlReading where
  | value (place : TomlPlace)
  | item (done : List TomlValue) (outer : TomlPlace)
  | afterItem (done : List TomlValue) (outer : TomlPlace)
  | firstKey (outer : TomlPlace)
  | key (done : List TomlAssignment) (outer : TomlPlace)
  | afterEntry (done : List TomlAssignment) (outer : TomlPlace)
  | finished (v : TomlValue)

namespace TomlPlace

def depth : TomlPlace → Nat
  | top => 0
  | item _ outer => outer.depth + 1
  | entry _ _ _ outer => outer.depth + 1

def depthLimit : Nat := 79

def fill (v : TomlValue) : TomlPlace → TomlReading
  | top => .finished v
  | item done outer => .afterItem (v :: done) outer
  | entry done path key outer => .afterEntry (⟨path, key, v⟩ :: done) outer

end TomlPlace

namespace Toml

def commentEnd? (s : List Char) : Option (List Char) :=
  match s.dropWhile isPrintable with
  | [] => some []
  | rest => newline? rest

private theorem length_afterBreak? {s rest more : List Char} (h : skipGap s = rest)
    (hn : newline? rest = some more) : more.length < s.length := by
  rw [← h] at hn
  exact Nat.lt_of_lt_of_le (length_newline? hn) (length_skipGap s)

private theorem length_afterComment? {s rest more : List Char} (h : skipGap s = '#' :: rest)
    (hn : newline? (rest.dropWhile isPrintable) = some more) : more.length < s.length := by
  have := length_newline? hn
  have := length_dropWhile_le isPrintable rest
  have := length_skipGap s
  grind

def skipFiller (s : List Char) : List Char :=
  match h : skipGap s with
  | '#' :: rest =>
    match hn : newline? (rest.dropWhile isPrintable) with
    | some more =>
      have : more.length < s.length := length_afterComment? h hn
      skipFiller more
    | none => '#' :: rest
  | rest =>
    match hn : newline? rest with
    | some more =>
      have : more.length < s.length := length_afterBreak? h hn
      skipFiller more
    | none => rest
termination_by s.length

def splitKey? (parts : List String) : Option (List String × String) :=
  parts.getLast?.map (parts.dropLast, ·)

def assignedKey? (s : List Char) : Option ((List String × String) × List Char) := do
  let (parts, s) ← key? s
  let key ← splitKey? parts
  let s ← stripStart? ['='] s
  some (key, s)

private theorem length_skipFiller (s : List Char) : (skipFiller s).length ≤ s.length := by
  fun_induction skipFiller s with
  | case1 s rest h more hn _ ih =>
    have := length_newline? hn
    have := length_dropWhile_le isPrintable rest
    have := length_skipGap s
    grind
  | case2 s rest h hn =>
    have := length_skipGap s
    grind
  | case3 s _ more hn _ ih =>
    have := length_newline? hn
    have := length_skipGap s
    grind
  | case4 s =>
    have := length_skipGap s
    grind

private theorem length_assignedKey? {s rest : List Char} {key : List String × String}
    (h : assignedKey? s = some (key, rest)) : rest.length < s.length := by
  simp only [assignedKey?, Option.bind_eq_bind, Option.bind_eq_some_iff, Prod.exists,
    Option.some.injEq, Prod.mk.injEq] at h
  obtain ⟨parts, s₁, h₁, _, _, _, s₂, h₂, _, rfl⟩ := h
  have := length_key? h₁
  have := length_stripStart? h₂
  simp only [List.length_cons, List.length_nil] at this
  omega

end Toml

namespace TomlReading

def start? (place : TomlPlace) (s : List Char) : Option (TomlReading × List Char) :=
  match s with
  | '[' :: s => if place.depth < TomlPlace.depthLimit then some (item [] place, s) else none
  | '\x7b' :: s => if place.depth < TomlPlace.depthLimit then some (firstKey place, s) else none
  | '"' :: _ => (text? s).map fun (t, rest) => (place.fill (.text t), rest)
  | '\'' :: _ => (text? s).map fun (t, rest) => (place.fill (.text t), rest)
  | _ => (scalarAt? s).map fun (v, rest) => (place.fill v, rest)

def startAssignment? (done : List TomlAssignment) (outer : TomlPlace) (s : List Char) :
    Option (TomlReading × List Char) :=
  (assignedKey? s).map fun ((path, last), rest) => (value (.entry done path last outer), rest)

def next? (reading : TomlReading) (s : List Char) : Option (TomlReading × List Char) :=
  match reading with
  | value place => start? place (skipGap s)
  | item done outer =>
    match skipFiller s with
    | ']' :: rest => some (outer.fill (.array done.reverse), rest)
    | rest => start? (.item done outer) rest
  | afterItem done outer =>
    match skipFiller s with
    | ',' :: rest => some (item done outer, rest)
    | ']' :: rest => some (outer.fill (.array done.reverse), rest)
    | _ => none
  | firstKey outer =>
    match skipGap s with
    | '\x7d' :: rest => some (outer.fill (.table []), rest)
    | rest => startAssignment? [] outer rest
  | key done outer => startAssignment? done outer s
  | afterEntry done outer =>
    match skipGap s with
    | ',' :: rest => some (key done outer, rest)
    | '\x7d' :: rest => (TomlValue.inlineTable? done.reverse).map fun v => (outer.fill v, rest)
    | _ => none
  | finished _ => none

private theorem length_start? {place : TomlPlace} {s rest : List Char} {reading : TomlReading}
    (h : start? place s = some (reading, rest)) : rest.length < s.length := by
  unfold start? at h
  split at h
  · grind
  · grind
  · obtain ⟨⟨t, more⟩, ht, h⟩ := Option.map_eq_some_iff.1 h
    have := length_text? ht
    grind
  · obtain ⟨⟨t, more⟩, ht, h⟩ := Option.map_eq_some_iff.1 h
    have := length_text? ht
    grind
  · obtain ⟨⟨v, more⟩, hv, h⟩ := Option.map_eq_some_iff.1 h
    have := length_scalarAt? hv
    grind

private theorem length_startAssignment? {done : List TomlAssignment} {outer : TomlPlace}
    {s rest : List Char} {reading : TomlReading}
    (h : startAssignment? done outer s = some (reading, rest)) :
    rest.length < s.length := by
  obtain ⟨⟨⟨path, key⟩, more⟩, hk, h⟩ := Option.map_eq_some_iff.1 h
  have := length_assignedKey? hk
  grind

private theorem length_next? {reading after : TomlReading} {s rest : List Char}
    (h : next? reading s = some (after, rest)) : rest.length < s.length := by
  have := length_skipFiller s
  have := length_skipGap s
  unfold next? at h
  split at h
  · have := length_start? h
    omega
  · split at h
    · grind
    · have := length_start? h
      omega
  · split at h <;> grind
  · split at h
    · grind
    · have := length_startAssignment? h
      omega
  · exact length_startAssignment? h
  · split at h
    · grind
    · obtain ⟨v, _, h⟩ := Option.map_eq_some_iff.1 h
      grind
    · simp at h
  · simp at h

def run? (reading : TomlReading) (s : List Char) : Option (TomlValue × List Char) :=
  match reading with
  | finished v => some (v, s)
  | reading =>
    match h : next? reading s with
    | some (after, rest) =>
      have := length_next? h
      run? after rest
    | none => none
termination_by s.length

private theorem length_run? {reading : TomlReading} {s rest : List Char} {v : TomlValue}
    (h : run? reading s = some (v, rest)) : rest.length ≤ s.length := by
  fun_induction run? reading s with
  | case1 => grind
  | case2 s reading _ after rest₁ hn _ ih =>
    have := ih h
    have := length_next? hn
    omega
  | case3 => simp at h

end TomlReading

inductive TomlStatement where
  | header (header : TomlHeader)
  | assign (assignment : TomlAssignment)

namespace Toml

def value? (s : List Char) : Option (TomlValue × List Char) :=
  TomlReading.run? (.value .top) s

def lineEnd? (s : List Char) : Option (List Char) :=
  match skipGap s with
  | [] => some []
  | '#' :: rest => commentEnd? rest
  | rest => newline? rest

def header? (isElement : Bool) (s : List Char) : Option (TomlStatement × List Char) := do
  let (parts, s) ← key? s
  let (path, key) ← splitKey? parts
  let s ← stripStart? (if isElement then [']', ']'] else [']']) s
  let s ← lineEnd? s
  some (.header ⟨path, key, isElement⟩, s)

def assignment? (s : List Char) : Option (TomlStatement × List Char) := do
  let ((path, key), s) ← assignedKey? s
  let (v, s) ← value? s
  let s ← lineEnd? s
  some (.assign ⟨path, key, v⟩, s)

def statement? (s : List Char) : Option (TomlStatement × List Char) :=
  match s with
  | '[' :: '[' :: s => header? true s
  | '[' :: s => header? false s
  | s => assignment? s

private theorem length_commentEnd? {s rest : List Char} (h : commentEnd? s = some rest) :
    rest.length ≤ s.length := by
  have := length_dropWhile_le isPrintable s
  unfold commentEnd? at h
  split at h
  · grind
  · have := length_newline? h
    omega

private theorem length_lineEnd? {s rest : List Char} (h : lineEnd? s = some rest) :
    rest.length ≤ s.length := by
  have := length_skipGap s
  unfold lineEnd? at h
  split at h
  · grind
  · have := length_commentEnd? h
    grind
  · have := length_newline? h
    omega

private theorem length_header? {isElement : Bool} {s rest : List Char} {statement : TomlStatement}
    (h : header? isElement s = some (statement, rest)) : rest.length < s.length := by
  simp only [header?, Option.bind_eq_bind, Option.bind_eq_some_iff, Prod.exists,
    Option.some.injEq, Prod.mk.injEq] at h
  obtain ⟨_, s₁, h₁, _, _, _, s₂, h₂, s₃, h₃, _, rfl⟩ := h
  have := length_key? h₁
  have := length_stripStart? h₂
  have := length_lineEnd? h₃
  omega

private theorem length_assignment? {s rest : List Char} {statement : TomlStatement}
    (h : assignment? s = some (statement, rest)) : rest.length < s.length := by
  simp only [assignment?, Option.bind_eq_bind, Option.bind_eq_some_iff, Prod.exists,
    Option.some.injEq, Prod.mk.injEq] at h
  obtain ⟨_, _, s₁, h₁, _, s₂, h₂, s₃, h₃, _, rfl⟩ := h
  have := length_assignedKey? h₁
  have := TomlReading.length_run? h₂
  have := length_lineEnd? h₃
  omega

private theorem length_statement? {s rest : List Char} {statement : TomlStatement}
    (h : statement? s = some (statement, rest)) : rest.length < s.length := by
  unfold statement? at h
  split at h
  · have := length_header? h
    grind
  · have := length_header? h
    grind
  · exact length_assignment? h

def statementsFrom? (done : List TomlStatement) (s : List Char) : Option (List TomlStatement) :=
  match hs : skipGap s with
  | [] => some done.reverse
  | '#' :: rest =>
    match he : commentEnd? rest with
    | some more =>
      have : more.length < s.length := by
        have := length_commentEnd? he
        have := length_skipGap s
        grind
      statementsFrom? done more
    | none => none
  | rest =>
    match hn : newline? rest with
    | some more =>
      have : more.length < s.length := by
        have := length_newline? hn
        have := length_skipGap s
        grind
      statementsFrom? done more
    | none =>
      match hst : statement? rest with
      | some (statement, more) =>
        have : more.length < s.length := by
          have := length_statement? hst
          have := length_skipGap s
          grind
        statementsFrom? (statement :: done) more
      | none => none
termination_by s.length

def sections (statements : List TomlStatement) : List TomlAssignment × List TomlSection :=
  statements.foldr (fun statement (first, rest) =>
    match statement with
    | .assign assignment => (assignment :: first, rest)
    | .header header => ([], ⟨header, first⟩ :: rest)) ([], [])

end Toml

/-- The table that a document is; a byte order mark at its start is passed over. -/
def TomlValue.parse? (document : String) : Option TomlValue := do
  let s := (stripStart? ['\uFEFF'] document.toList).getD document.toList
  let statements ← Toml.statementsFrom? [] s
  let (first, rest) := Toml.sections statements
  TomlValue.ofSections? first rest

end RepoGraph
