import RepoGraph.Reference
/-!
# Imports of PHP

The four include statements with a literal path, which may start at the including file's directory,
and namespace imports at the start of a line; an indented `use` takes a trait.
-/
namespace RepoGraph.Import.Php
open Text

def includeWords : List (List Char × ReferenceKind) :=
  [("require_once".toList, .requires), ("require".toList, .requires),
    ("include_once".toList, .includes), ("include".toList, .includes)]

def includeWord? (s : List Char) : Option (ReferenceKind × List Char) :=
  includeWords.findSome? fun (word, kind) => do
    let rest ← stripStart? word s
    if startsWord rest.head? then some (kind, rest) else none

def afterDot? (s : List Char) : Option (List Char) :=
  (stripStart? ['.'] (skipBlanks s)).map skipBlanks

/-- The text after an expression for the including file's directory and the dot that joins it to a
path. -/
def directoryJoin? (s : List Char) : Option (List Char) :=
  let byFile := do
    let rest ← stripStart? "dirname".toList s
    let rest ← stripStart? ['('] (skipBlanks rest)
    let rest ← stripStart? "__FILE__".toList (skipBlanks rest)
    let rest ← stripStart? [')'] (skipBlanks rest)
    afterDot? rest
  ((stripStart? "__DIR__".toList s).bind afterDot?).or byFile

/-- The path of an include, written as relative where it starts at the including file's
directory. -/
def includeAt? (before : Option Char) (s : List Char) :
    Option ((List Char × ReferenceKind) × List Char) := do
  if startsWord before then
    let (kind, rest) ← includeWord? s
    let rest := skipBlanks rest
    let rest := skipBlanks ((stripStart? ['('] rest).getD rest)
    match directoryJoin? rest with
    | some rest =>
      let (path, rest) ← quoted? rest
      let slash := if path.head? = some '/' then [] else ['/']
      some (('.' :: slash ++ path, kind), rest)
    | none =>
      let (path, rest) ← quoted? rest
      some ((path, kind), rest)
  else none

private theorem length_includeWord? {s rest : List Char} {kind : ReferenceKind}
    (h : includeWord? s = some (kind, rest)) : rest.length ≤ s.length := by
  obtain ⟨_, ⟨word, kind⟩, _, _, h, _⟩ := List.findSome?_eq_some_iff.1 h
  simp only [Option.bind_eq_bind, Option.bind_eq_some_iff] at h
  obtain ⟨after, hafter, h⟩ := h
  have := length_stripStart? hafter
  grind

private theorem length_afterDot? {s rest : List Char} (h : afterDot? s = some rest) :
    rest.length ≤ s.length := by
  obtain ⟨after, hafter, rfl⟩ := Option.map_eq_some_iff.1 h
  have := length_stripStart? hafter
  have := length_skipBlanks s
  have := length_skipBlanks after
  omega

private theorem length_directoryJoin? {s rest : List Char} (h : directoryJoin? s = some rest) :
    rest.length ≤ s.length := by
  unfold directoryJoin? at h
  rcases Option.or_eq_some_iff.1 h with h | ⟨_, h⟩
  · obtain ⟨after, hafter, h⟩ := Option.bind_eq_some_iff.1 h
    have := length_stripStart? hafter
    have := length_afterDot? h
    omega
  · simp only [Option.bind_eq_bind, Option.bind_eq_some_iff] at h
    obtain ⟨s₁, h₁, s₂, h₂, s₃, h₃, s₄, h₄, h⟩ := h
    have := length_stripStart? h₁
    have := length_skipBlanks s₁
    have := length_stripStart? h₂
    have := length_skipBlanks s₂
    have := length_stripStart? h₃
    have := length_skipBlanks s₃
    have := length_stripStart? h₄
    have := length_afterDot? h
    omega

private theorem length_getD_stripStart? (pre s : List Char) :
    ((stripStart? pre s).getD s).length ≤ s.length := by
  cases h : stripStart? pre s with
  | none => exact Nat.le_refl _
  | some rest =>
    have := length_stripStart? h
    simp only [Option.getD_some]
    omega

private theorem length_includeAt? {before : Option Char} {s rest : List Char}
    {found : List Char × ReferenceKind} (h : includeAt? before s = some (found, rest)) :
    rest.length < s.length := by
  unfold includeAt? at h
  split at h
  · simp only [Option.bind_eq_bind, Option.bind_eq_some_iff, Prod.exists] at h
    obtain ⟨kind, after, hafter, h⟩ := h
    have := length_includeWord? hafter
    have := length_skipBlanks after
    have := length_getD_stripStart? ['('] (skipBlanks after)
    have := length_skipBlanks ((stripStart? ['('] (skipBlanks after)).getD (skipBlanks after))
    split at h
    · rename_i hjoin
      have := length_directoryJoin? hjoin
      obtain ⟨⟨path, left⟩, hquoted, h⟩ := Option.bind_eq_some_iff.1 h
      have := length_quoted? hquoted
      grind
    · obtain ⟨⟨path, left⟩, hquoted, h⟩ := Option.bind_eq_some_iff.1 h
      have := length_quoted? hquoted
      grind
  · simp at h

def namespaceName? (s : List Char) : Option (List Char × List Char) :=
  nameWith? (· == '\\') ((stripStart? ['\\'] s).getD s)

def use? (code : List Char) : Option (List Char) := do
  let rest ← keyword? "use".toList code
  let kind := (keyword? "function".toList rest).or (keyword? "const".toList rest)
  let (name, _) ← (kind.bind namespaceName?).or (namespaceName? rest)
  some (cutEndWhile (· == '\\') name)

def namespace? (code : List Char) : Option (List Char) := do
  let rest ← keyword? "namespace".toList (skipBlanks code)
  let (name, rest) ← namespaceName? rest
  match skipBlanks rest with
  | c :: _ => if c == ';' || c == '\x7b' then some name else none
  | [] => none

def readLine (code : List Char) : List (List Char × ReferenceKind) :=
  findAll includeAt? length_includeAt? none code ++ (use? code).toList.map (·, .uses)

end RepoGraph.Import.Php
