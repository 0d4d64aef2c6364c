import RepoGraph.Proofs.Resolve.RelativePaths

/-!
# Larger indexes

A reference leaves the repository only when every search for it has failed. A search that fails over
an index fails over every part of it, so that a reference that leaves the repository by the larger
index leaves it by the part in the same way. Rust is left out: the root of a crate, from which its
paths are seen, is itself searched for.
-/

namespace RepoGraph

open Text

private theorem findSome?_eq_none_of_imp {α β : Type} {f g : α → Option β} {list : List α}
    (hfg : ∀ a, g a = none → f a = none) (h : list.findSome? g = none) :
    list.findSome? f = none := by
  rw [List.findSome?_eq_none_iff] at h ⊢
  exact fun a ha => hfg a (h a ha)

private theorem bind_eq_none_of_imp {α β : Type} {f g : α → Option β} {found : Option α}
    (hfg : ∀ a, g a = none → f a = none) (h : found.bind g = none) : found.bind f = none := by
  rw [Option.bind_eq_none_iff] at h ⊢
  exact fun a ha => hfg a (h a ha)

private theorem or_eq_none_of_imp {α : Type} {a b a' b' : Option α} (ha : a' = none → a = none)
    (hb : b' = none → b = none) (h : a'.or b' = none) : a.or b = none := by
  rw [Option.or_eq_none_iff] at h ⊢
  exact ⟨ha h.1, hb h.2⟩

namespace RepoIndex

variable {index larger : RepoIndex}

/-- Whether the files, the namespaces and, by their paths, the Go modules of an index are all in
another one. -/
structure IsPartOf (index larger : RepoIndex) : Prop where
  files : ∀ path, index.contains path = true → larger.contains path = true
  namespaces : ∀ name, index.hasNamespace name = true → larger.hasNamespace name = true
  goModules : ∀ module ∈ index.goModules, ∃ other ∈ larger.goModules, other.path = module.path

structure FindsLess (index larger : RepoIndex) : Prop where
  file : ∀ path, index.contains path = true → larger.contains path = true
  suffix : ∀ suffix, larger.findBySuffix? suffix = none → index.findBySuffix? suffix = none
  name : ∀ name, index.hasNamespace name = true → larger.hasNamespace name = true
  package : ∀ path, larger.goPackageDir? path = none → index.goPackageDir? path = none

private theorem packageDir?_eq_none_of_path_eq {module other : GoModule} {path : String}
    (hpath : other.path = module.path) (h : other.packageDir? path = none) :
    module.packageDir? path = none := by
  rw [GoModule.packageDir?, hpath] at h
  rw [GoModule.packageDir?]
  split at h
  · cases h
  · rename_i hne
    rw [if_neg hne, Option.map_eq_none_iff.mp h, Option.map_none]

private theorem IsPartOf.findsLess (h : index.IsPartOf larger) (hindex : index.Reachable)
    (hlarger : larger.Reachable) : index.FindsLess larger where
  file := h.files
  suffix suffix hnone := by
    rw [← Option.not_isSome_iff_eq_none, hlarger.isSome_findBySuffix?_iff] at hnone
    rw [← Option.not_isSome_iff_eq_none, hindex.isSome_findBySuffix?_iff]
    rintro ⟨path, hcontains, hsuffix⟩
    exact hnone ⟨path, h.files path hcontains, hsuffix⟩
  name := h.namespaces
  package path hnone := by
    rw [goPackageDir?, List.findSome?_eq_none_iff] at hnone ⊢
    intro module hmodule
    obtain ⟨other, hother, hpath⟩ := h.goModules module hmodule
    exact packageDir?_eq_none_of_path_eq hpath (hnone other hother)

theorem FindsLess.probe? (h : index.FindsLess larger) {path : String}
    {suffixes names : List String} (hnone : larger.probe? path suffixes names = none) :
    index.probe? path suffixes names = none := by
  rw [RepoIndex.probe?, List.find?_eq_none] at hnone ⊢
  exact fun path hpath hcontains => hnone path hpath (h.file path hcontains)

theorem FindsLess.scriptFile? (h : index.FindsLess larger) (path : String)
    (hnone : Importer.scriptFile? larger path = none) : Importer.scriptFile? index path = none := by
  refine or_eq_none_of_imp h.probe? ?_ hnone
  intro hsource
  split at hsource
  · rename_i hsame
    exact if_pos hsame
  · rename_i hother
    rw [if_neg hother]
    exact h.probe? hsource

theorem FindsLess.aliased? (h : index.FindsLess larger) {token : String}
    (hnone : Importer.aliased? larger token = none) : Importer.aliased? index token = none :=
  bind_eq_none_of_imp (fun _ => findSome?_eq_none_of_imp fun _ => h.scriptFile? _) hnone

theorem FindsLess.classFile? (h : index.FindsLess larger) {parts : List String}
    (hnone : Importer.classFile? larger parts = none) : Importer.classFile? index parts = none :=
  findSome?_eq_none_of_imp (fun _ => findSome?_eq_none_of_imp fun _ => h.suffix _) hnone

theorem FindsLess.phpClassFile? (h : index.FindsLess larger) {parts : List String}
    (hnone : Importer.phpClassFile? larger parts = none) :
    Importer.phpClassFile? index parts = none :=
  findSome?_eq_none_of_imp (fun _ => h.suffix _) hnone

end RepoIndex

namespace Importer

variable {importer : Importer} {larger : RepoIndex} {token name : String}
  {ecosystem : Ecosystem} {package : String} {language : Language}

def withIndex (importer : Importer) (index : RepoIndex) : Importer := { importer with index }

private theorem namespaceOf?_eq_none_of_withIndex (h : importer.index.FindsLess larger)
    {separator : String} {parts : List String}
    (hnone : (importer.withIndex larger).namespaceOf? separator parts = none) :
    importer.namespaceOf? separator parts = none := by
  rw [namespaceOf?, List.find?_eq_none] at hnone ⊢
  exact fun name hname hdeclared => hnone name hname (h.name name hdeclared)

private theorem searchFrom?_eq_none_of_imp {dirs : List String}
    {probe probe' : String → Option String}
    (hprobe : ∀ path, probe' path = none → probe path = none)
    (hnone : searchFrom? dirs token probe' = none) : searchFrom? dirs token probe = none :=
  findSome?_eq_none_of_imp (fun _ => bind_eq_none_of_imp hprobe) hnone

private theorem absolutePython?_eq_none_of_withIndex (h : importer.index.FindsLess larger)
    (hnone : (importer.withIndex larger).absolutePython? token = none) :
    importer.absolutePython? token = none :=
  findSome?_eq_none_of_imp (fun _ => findSome?_eq_none_of_imp fun _ => h.probe?) hnone

private theorem header?_eq_none_of_withIndex (h : importer.index.FindsLess larger)
    (hnone : (importer.withIndex larger).header? token = none) : importer.header? token = none := by
  refine or_eq_none_of_imp (searchFrom?_eq_none_of_imp ?_) (h.suffix _) hnone
  intro path hpath
  split at hpath
  · cases hpath
  · rename_i hcontains
    exact if_neg (mt (h.file path) hcontains)

theorem relative?_ne_external {probe : String → Option String} :
    importer.relative? token probe ≠ some (.external ecosystem package language) := by
  rw [RepoIndex.relative?_eq_map]
  intro h
  obtain ⟨id, -, h⟩ := Option.map_eq_some_iff.mp h
  cases h

theorem relativePython?_ne_external :
    importer.relativePython? token ≠ some (.external ecosystem package language) := by
  intro h
  obtain ⟨dir, -, h⟩ := Option.bind_eq_some_iff.mp h
  dsimp only at h
  split at h
  · cases h
  · split at h <;> cases h

private theorem python?_of_withIndex (h : importer.index.FindsLess larger)
    (hout : (importer.withIndex larger).python? token =
      some (.external ecosystem package language)) :
    importer.python? token = some (.external ecosystem package language) := by
  unfold python? at hout ⊢
  split at hout
  · exact absurd hout relativePython?_ne_external
  · rename_i hbare
    rw [if_neg hbare]
    split at hout
    · cases hout
    · rename_i hnone
      rw [absolutePython?_eq_none_of_withIndex h hnone]
      exact hout

private theorem script?_of_withIndex (h : importer.index.FindsLess larger)
    (hout : (importer.withIndex larger).script? token =
      some (.external ecosystem package language)) :
    importer.script? token = some (.external ecosystem package language) := by
  unfold script? at hout ⊢
  dsimp only at hout ⊢
  split at hout
  · exact absurd hout relative?_ne_external
  · rename_i hbare
    rw [if_neg hbare]
    split at hout
    · cases hout
    · rename_i hnone
      rw [or_eq_none_of_imp h.aliased? (bind_eq_none_of_imp h.scriptFile?) hnone]
      exact hout

private theorem go?_of_withIndex (h : importer.index.FindsLess larger)
    (hout : (importer.withIndex larger).go? token = some (.external ecosystem package language)) :
    importer.go? token = some (.external ecosystem package language) := by
  unfold go? at hout ⊢
  split at hout
  · exact absurd hout relative?_ne_external
  · rename_i hbare
    rw [if_neg hbare]
    split at hout
    · cases hout
    · rename_i hnone
      rw [h.package token hnone]
      exact hout

private theorem jvm?_of_withIndex (h : importer.index.FindsLess larger)
    (hout : (importer.withIndex larger).jvm? token = some (.external ecosystem package language)) :
    importer.jvm? token = some (.external ecosystem package language) := by
  unfold jvm? at hout ⊢
  dsimp only at hout ⊢
  split at hout
  · cases hout
  · rename_i hnone
    rw [or_eq_none_of_imp h.classFile? (namespaceOf?_eq_none_of_withIndex h) hnone]
    exact hout

private theorem cSharp?_of_withIndex (h : importer.index.FindsLess larger)
    (hout : (importer.withIndex larger).cSharp? token =
      some (.external ecosystem package language)) :
    importer.cSharp? token = some (.external ecosystem package language) := by
  unfold cSharp? at hout ⊢
  split at hout
  · cases hout
  · rename_i hnone
    rw [namespaceOf?_eq_none_of_withIndex h hnone]
    exact hout

private theorem phpUse?_of_withIndex (h : importer.index.FindsLess larger)
    (hout : (importer.withIndex larger).phpUse? token =
      some (.external ecosystem package language)) :
    importer.phpUse? token = some (.external ecosystem package language) := by
  unfold phpUse? at hout ⊢
  dsimp only at hout ⊢
  split at hout
  · cases hout
  · rename_i hparts
    rw [if_neg hparts]
    split at hout
    · cases hout
    · rename_i hnone
      rw [or_eq_none_of_imp h.phpClassFile? (namespaceOf?_eq_none_of_withIndex h) hnone]
      exact hout

private theorem phpInclude?_of_withIndex (h : importer.index.FindsLess larger)
    (hout : (importer.withIndex larger).phpInclude? token =
      some (.external ecosystem package language)) :
    importer.phpInclude? token = some (.external ecosystem package language) := by
  unfold phpInclude? at hout ⊢
  dsimp only at hout ⊢
  split at hout
  · exact absurd hout relative?_ne_external
  · rename_i hbare
    rw [if_neg hbare]
    split at hout
    · cases hout
    · rename_i hnone
      have hless : (searchFrom? [importer.dir, ""] token fun path =>
          importer.index.probe? path Language.php.sourceSuffixes []) = none :=
        searchFrom?_eq_none_of_imp (fun _ => h.probe?) hnone
      rw [hless]
      exact hout

private theorem ruby?_of_withIndex (h : importer.index.FindsLess larger)
    (hout : (importer.withIndex larger).ruby? token = some (.external ecosystem package language)) :
    importer.ruby? token = some (.external ecosystem package language) := by
  unfold ruby? at hout ⊢
  dsimp only at hout ⊢
  split at hout
  · exact absurd hout relative?_ne_external
  · rename_i hbare
    rw [if_neg hbare]
    split at hout
    · cases hout
    · rename_i hnone
      have hless : (searchFrom? [importer.dir, "", "lib"] token fun path =>
          importer.index.probe? path Language.ruby.sourceSuffixes []) = none :=
        searchFrom?_eq_none_of_imp (fun _ => h.probe?) hnone
      rw [hless]
      exact hout

private theorem cFamily?_of_withIndex (h : importer.index.FindsLess larger)
    (hout : (importer.withIndex larger).cFamily? token =
      some (.external ecosystem package language)) :
    importer.cFamily? token = some (.external ecosystem package language) := by
  unfold cFamily? at hout ⊢
  cases hbracketed : bracketed? token with
  | some header =>
    rw [hbracketed] at hout
    dsimp only at hout ⊢
    split at hout
    · cases hout
    · rename_i hnone
      rw [h.suffix header hnone]
      exact hout
  | none =>
    rw [hbracketed] at hout
    dsimp only at hout ⊢
    split at hout
    · cases hout
    · rename_i hnone
      rw [header?_eq_none_of_withIndex h hnone]
      dsimp only
      split at hout
      · exact absurd hout relative?_ne_external
      · rename_i hbare
        rw [if_neg hbare]
        exact hout

/-- What leaves the repository by a larger index leaves it in the same way by its part. -/
theorem target?_of_withIndex (h : importer.index.FindsLess larger)
    (hrust : importer.language ≠ .rust)
    (hout : (importer.withIndex larger).target? token =
      some (.external ecosystem package language)) :
    importer.target? token = some (.external ecosystem package language) := by
  have hlanguage : (importer.withIndex larger).language = importer.language := rfl
  have hkind : (importer.withIndex larger).kind = importer.kind := rfl
  revert hout
  rw [target?, target?, hlanguage, hkind]
  generalize importer.language = importing at hrust
  cases importing with
  | python => exact python?_of_withIndex h
  | javaScript | typeScript => exact script?_of_withIndex h
  | go => exact go?_of_withIndex h
  | java | kotlin => exact jvm?_of_withIndex h
  | cSharp => exact cSharp?_of_withIndex h
  | php =>
    dsimp only
    split
    · exact phpUse?_of_withIndex h
    · exact phpInclude?_of_withIndex h
  | ruby => exact ruby?_of_withIndex h
  | rust => exact absurd rfl hrust
  | c | cpp => exact cFamily?_of_withIndex h

end Importer

namespace RepoIndex

/-- Indexing more turns no module of the repository into a package: what a reference outside Rust
means outside the repository by the larger index, it means by every part of it. -/
theorem external_of_isPartOf {index larger : RepoIndex} (hindex : index.Reachable)
    (hlarger : larger.Reachable) (hpart : index.IsPartOf larger) {reference : Reference}
    (hsame : index.importingLanguage? reference.fromFile =
      larger.importingLanguage? reference.fromFile)
    (hrust : larger.importingLanguage? reference.fromFile ≠ some .rust) {ecosystem : Ecosystem}
    {package : String} {language : Language}
    (h : larger.resolve? reference = some (.external ecosystem package language)) :
    index.resolve? reference = some (.external ecosystem package language) := by
  rw [resolve?_eq_some_iff] at h ⊢
  obtain ⟨hwritten, importing, himporting, htarget, helse⟩ := h
  have hnot : importing ≠ .rust := by
    rintro rfl
    exact hrust himporting
  exact ⟨hwritten, importing, hsame.trans himporting,
    Importer.target?_of_withIndex (hpart.findsLess hindex hlarger) hnot htarget, helse⟩

/-- The library with one more file, in a directory named like the first one. -/
def treeLibrary : RepoIndex := setLibrary.addFile "lib/set/tree.rb" .ruby

/-- A reference to a file of that directory that is in neither library. -/
def toSorted : Reference := ⟨"app.rb", "set/sorted", .requires, 1⟩

private theorem contains_treeLibrary (path : String) :
    treeLibrary.contains path = ("lib/set/tree.rb" == path || "lib/set.rb" == path) := by
  rw [treeLibrary, contains_addFile, contains_setLibrary]

private theorem setLibrary_isPartOf : setLibrary.IsPartOf treeLibrary where
  files path hcontains := by
    rw [treeLibrary, contains_addFile, hcontains, Bool.or_true]
  namespaces _ hname := hname
  goModules module hmodule := ⟨module, hmodule, rfl⟩

private theorem importingLanguage?_treeLibrary :
    treeLibrary.importingLanguage? toSorted.fromFile = some .ruby := by
  rw [importingLanguage?, treeLibrary, language?_addFile, language?_setLibrary]
  decide

private theorem resolve?_treeLibrary :
    treeLibrary.resolve? toSorted = some (.external .gem "set" .ruby) := by
  let importer : Importer := ⟨treeLibrary, "app.rb", .ruby, .requires⟩
  have hnone : (Importer.searchFrom? [importer.dir, "", "lib"] "set/sorted" fun path =>
      treeLibrary.probe? path Language.ruby.sourceSuffixes []) = none := by
    simp only [probe?, funext contains_treeLibrary]
    decide
  have hruby : importer.ruby? "set/sorted" = importer.external? "set/sorted" := by
    rw [ruby?_of_bare (by decide), hnone, Option.map_none, Option.none_or]
  rw [resolve?_eq_some_iff]
  refine ⟨by decide, .ruby, importingLanguage?_treeLibrary, hruby.trans ?_, rfl⟩
  decide

/-- A gem for both libraries. -/
theorem external_of_isPartOf_treeLibrary :
    setLibrary.IsPartOf treeLibrary ∧
      treeLibrary.resolve? toSorted = some (.external .gem "set" .ruby) ∧
      setLibrary.resolve? toSorted = some (.external .gem "set" .ruby) := by
  have hlarger : treeLibrary.Reachable := .addFile "lib/set/tree.rb" .ruby reachable_setLibrary
  have hsame : setLibrary.importingLanguage? toSorted.fromFile =
      treeLibrary.importingLanguage? toSorted.fromFile := by
    rw [importingLanguage?_treeLibrary, importingLanguage?, language?_setLibrary]
    decide
  refine ⟨setLibrary_isPartOf, resolve?_treeLibrary, ?_⟩
  apply external_of_isPartOf reachable_setLibrary hlarger setLibrary_isPartOf hsame
  · rw [importingLanguage?_treeLibrary]
    decide
  · exact resolve?_treeLibrary

end RepoIndex

end RepoGraph
