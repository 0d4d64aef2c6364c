import RepoGraph.Proofs.Resolve.RelativePaths

/-!
# No invented modules

A module that a reference resolves to is found in the index, unless the reference is written as one
inside the repository: relative to its file, inside its crate, or inside a Go module of the
repository. All other references that find nothing leave the repository or are dropped.
-/

namespace RepoGraph.RepoIndex

variable {index : RepoIndex} {reference : Reference}

/-- Whether an id is found for a reference, as the path of a file or, where references are names, as
a declared package or namespace. -/
inductive Finds (index : RepoIndex) (reference : Reference) : String → Prop
  | file {path : String} (indexed : index.contains path = true) : Finds index reference path
  | name {name : String} {importing : Language}
      (language : index.importingLanguage? reference.fromFile = some importing)
      (names : Importer.importsNames ⟨index, reference.fromFile, importing, reference.kind⟩ = true)
      (declared : index.hasNamespace name = true) : Finds index reference name

/-- Whether a reference is written as one inside the repository. -/
inductive WritesInside (index : RepoIndex) (reference : Reference) : Prop
  | goPackage (language : index.importingLanguage? reference.fromFile = some .go)
      (inModule : (index.goPackageDir? reference.written).isSome = true)
  | relative {importing : Language}
      (language : index.importingLanguage? reference.fromFile = some importing)
      (relative : Importer.isRelative ⟨index, reference.fromFile, importing, reference.kind⟩
        reference.written = true)
  | crateModule {first : String} {more : List String}
      (language : index.importingLanguage? reference.fromFile = some .rust)
      (names : Importer.rustNames reference.written = first :: more)
      (inCrate : first ∈ ["crate", "self", "super"])

private theorem finds_or_writesInside_of_origin {importing : Language} {id : String}
    (hindex : index.Reachable)
    (hlanguage : index.importingLanguage? reference.fromFile = some importing)
    (horigin : Importer.Origin ⟨index, reference.fromFile, importing, reference.kind⟩
      reference.written id) : index.Finds reference id ∨ index.WritesInside reference := by
  cases horigin with
  | indexed found => exact Or.inl (.file (hindex.contains_of_indexes found))
  | declared names found => exact Or.inl (.name hlanguage names found)
  | relative relative part meant => exact Or.inr (.relative hlanguage relative)
  | dotted python relative climbed => exact Or.inr (.relative hlanguage relative)
  | goPackage go bare found =>
    obtain rfl : importing = .go := go
    exact Or.inr (.goPackage hlanguage (Option.isSome_of_eq_some found))
  | crateModule rust names inCrate start =>
    obtain rfl : importing = .rust := rust
    exact Or.inr (.crateModule hlanguage names inCrate)

/-- A reference resolves to a module other than its own file that is found, unless it is written as
one inside the repository; if it is not, and finds nothing, it leaves the repository or is
dropped. -/
theorem found_of_resolve? (hindex : index.Reachable) (reference : Reference) :
    (∀ id language, index.resolve? reference = some (.internal id language) →
      id ≠ "" ∧ id ≠ reference.fromFile ∧
        (index.Finds reference id ∨ index.WritesInside reference)) ∧
    (¬ index.WritesInside reference →
      (∀ id language, index.Finds reference id →
        index.resolve? reference ≠ some (.internal id language)) →
      index.resolve? reference = none ∨ ∃ ecosystem package language,
        index.resolve? reference = some (.external ecosystem package language)) := by
  have hbacked (id : String) (language : Language)
      (h : index.resolve? reference = some (.internal id language)) :
      id ≠ "" ∧ id ≠ reference.fromFile ∧
        (index.Finds reference id ∨ index.WritesInside reference) := by
    obtain ⟨importing, hlanguage, horigin, hne⟩ := origin_of_resolve? h
    obtain ⟨-, -, -, -, helse⟩ := resolve?_eq_some_iff.mp h
    rw [isElsewhere, Bool.and_eq_true, bne_iff_ne] at helse
    exact ⟨hne, helse.1, finds_or_writesInside_of_origin hindex hlanguage horigin⟩
  refine ⟨hbacked, ?_⟩
  intro hinside hunmatched
  cases h : index.resolve? reference with
  | none => exact Or.inl rfl
  | some target =>
    cases target with
    | internal id language =>
      obtain ⟨-, -, hfinds⟩ := hbacked id language h
      exact absurd h (hunmatched id language (hfinds.resolve_right hinside))
    | external ecosystem package language => exact Or.inr ⟨ecosystem, package, language, rfl⟩

def toSet : Reference := ⟨"app.rb", "set", .requires, 1⟩

private theorem importingLanguage?_toSet :
    setLibrary.importingLanguage? toSet.fromFile = some .ruby := by
  rw [importingLanguage?, language?_setLibrary]
  decide

private theorem resolve?_toSet :
    setLibrary.resolve? toSet = some (.internal "lib/set.rb" .ruby) := by
  let importer : Importer := ⟨setLibrary, "app.rb", .ruby, .requires⟩
  have hfile : (Importer.searchFrom? [importer.dir, "", "lib"] "set" fun path =>
      setLibrary.probe? path Language.ruby.sourceSuffixes []) = some "lib/set.rb" := by
    simp only [probe?, funext contains_setLibrary]
    decide
  have hinternal : importer.internal "lib/set.rb" = .internal "lib/set.rb" .ruby := by
    simp only [Importer.internal, importer, language?_setLibrary]
    rfl
  have hruby : importer.ruby? "set" = some (.internal "lib/set.rb" .ruby) := by
    rw [ruby?_of_bare (by decide), hfile, Option.map_some, Option.some_or, hinternal]
  rw [resolve?_eq_some_iff]
  exact ⟨by decide, .ruby, importingLanguage?_toSet, hruby, by decide⟩

/-- The file is found. -/
theorem found_of_resolve?_setLibrary :
    setLibrary.resolve? toSet = some (.internal "lib/set.rb" .ruby) ∧
      "lib/set.rb" ≠ toSet.fromFile ∧ setLibrary.Finds toSet "lib/set.rb" := by
  obtain ⟨-, hother, hfinds⟩ :=
    (found_of_resolve? reachable_setLibrary toSet).1 _ _ resolve?_toSet
  refine ⟨resolve?_toSet, hother, hfinds.resolve_right ?_⟩
  intro hinside
  have hruby := importingLanguage?_toSet
  cases hinside with
  | goPackage language inModule =>
    rw [hruby] at language
    cases language
  | relative language relative =>
    obtain rfl := Option.some.inj (hruby.symm.trans language)
    exact absurd relative (by decide)
  | crateModule language names inCrate =>
    rw [hruby] at language
    cases language

end RepoGraph.RepoIndex
