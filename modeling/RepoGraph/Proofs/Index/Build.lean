import Mathlib.Data.List.Basic
import RepoGraph.Proofs.Index.Reachable

/-!
# What an index holds

The index of files and manifests knows the files by their paths, each with its language, and the Go
modules of the manifests' directories. It knows nothing else.
-/

namespace RepoGraph

namespace RepoIndex

private theorem foldl_addNamespace (names : List String) (language : Language) (index : RepoIndex) :
    ∃ namespaces, names.foldl (fun index name => index.addNamespace name language) index =
      { index with namespaces } := by
  induction names generalizing index with
  | nil => exact ⟨index.namespaces, rfl⟩
  | cons name names ih => exact ih (index.addNamespace name language)

private theorem files_addSource (index : RepoIndex) (file : SourceFile) :
    (index.addSource file).files = index.files.insert file.path file.language := by
  obtain ⟨namespaces, heq⟩ := foldl_addNamespace file.declaredNamespaces file.language
    (index.addFile file.path file.language)
  rw [addSource, heq]
  rfl

private theorem goModules_addSource (index : RepoIndex) (file : SourceFile) :
    (index.addSource file).goModules = index.goModules := by
  obtain ⟨namespaces, heq⟩ := foldl_addNamespace file.declaredNamespaces file.language
    (index.addFile file.path file.language)
  rw [addSource, heq]
  rfl

private theorem goModules_addManifest {index : RepoIndex} {manifest : Manifest} {module : GoModule}
    (h : module ∈ (index.addManifest manifest).goModules) :
    module.dir = manifest.dir ∨ module ∈ index.goModules := by
  rw [addManifest] at h
  split at h
  · rename_i declared hdeclared
    rcases mem_insertOrdered.mp h with rfl | h
    · left
      rw [moduleOf?] at hdeclared
      split at hdeclared
      · obtain ⟨path, -, rfl⟩ := Option.map_eq_some_iff.mp hdeclared
        rfl
      · cases hdeclared
    · exact Or.inr h
  · exact Or.inr h

variable {files : List SourceFile} {manifests : List Manifest}

theorem files_build (files : List SourceFile) (manifests : List Manifest) :
    (build files manifests).files =
      ({} : Std.HashMap String Language).insertMany
        (files.map fun file => (file.path, file.language)) := by
  -- Sources are added to any table; manifests leave it alone.
  have hsources (index : RepoIndex) : (files.foldl addSource index).files =
      index.files.insertMany (files.map fun file => (file.path, file.language)) := by
    induction files generalizing index with
    | nil => rw [List.foldl_nil, List.map_nil, Std.HashMap.insertMany_nil]
    | cons file files ih =>
      rw [List.foldl_cons, ih, files_addSource, List.map_cons, Std.HashMap.insertMany_cons]
  rw [build]
  exact List.foldlRecOn (motive := fun index => index.files = _) manifests addManifest
    (hsources {}) fun index h manifest _ => (files_addManifest index manifest).trans h

theorem language?_build (hpaths : (files.map (·.path)).Nodup) {file : SourceFile}
    (hfile : file ∈ files) : (build files manifests).language? file.path = some file.language := by
  have hdistinct : (files.map fun file => (file.path, file.language)).Pairwise
      fun a b => (a.1 == b.1) = false := by
    rw [List.pairwise_map]
    rw [List.nodup_iff_pairwise_ne, List.pairwise_map] at hpaths
    exact hpaths.imp beq_false_of_ne
  rw [language?, files_build]
  exact Std.HashMap.getElem?_insertMany_list_of_mem BEq.rfl hdistinct
    (List.mem_map_of_mem hfile)

theorem indexes_build {path : String} (h : (build files manifests).Indexes path) :
    ∃ file ∈ files, file.path = path := by
  have hcontains := (reachable_build files manifests).contains_of_indexes h
  rw [contains, files_build, Std.HashMap.contains_insertMany_list, Std.HashMap.contains_empty,
    Bool.false_or, List.contains_iff_mem, List.map_map] at hcontains
  exact List.mem_map.mp hcontains

theorem goModules_build {module : GoModule} (h : module ∈ (build files manifests).goModules) :
    ∃ manifest ∈ manifests, manifest.dir = module.dir := by
  have hsources : (files.foldl addSource {}).goModules = [] :=
    List.foldlRecOn (motive := fun index : RepoIndex => index.goModules = []) files addSource rfl
      fun index h file _ => (goModules_addSource index file).trans h
  revert module
  rw [build]
  apply List.foldlRecOn (motive := fun index : RepoIndex => ∀ module ∈ index.goModules,
    ∃ manifest ∈ manifests, manifest.dir = module.dir) manifests addManifest
  · rw [hsources]
    intro module h
    cases h
  · intro index hindex manifest hmanifest module h
    rcases goModules_addManifest h with hdir | h
    · exact ⟨manifest, hmanifest, hdir.symm⟩
    · exact hindex module h

end RepoIndex

end RepoGraph
