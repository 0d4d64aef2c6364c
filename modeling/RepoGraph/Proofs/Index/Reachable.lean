import RepoGraph.Proofs.Resolve.Origin
import Std.Data.HashMap.Lemmas

/-!
# Indexes that are built up

However files, namespaces and manifests are added to an index, and in whatever order, the table of
names lists exactly the files, each under its own name. A search by suffix, which looks at one name
only, therefore misses no file.
-/

namespace RepoGraph

theorem mem_insertOrdered {α : Type} {before : α → α → Bool} {a b : α} {list : List α} :
    b ∈ insertOrdered before a list ↔ b = a ∨ b ∈ list := by
  induction list with
  | nil => simp [insertOrdered]
  | cons c rest ih =>
    rw [insertOrdered]
    split
    · exact List.mem_cons
    · rw [List.mem_cons, ih, List.mem_cons]
      exact or_left_comm

private theorem pairwise_insertOrdered {path : String} {paths : List String}
    (hordered : paths.Pairwise (· < ·)) (hnew : path ∉ paths) :
    (insertOrdered (· < ·) path paths).Pairwise (· < ·) := by
  induction paths with
  | nil => exact List.pairwise_singleton _ _
  | cons first rest ih =>
    obtain ⟨hfirst, hrest⟩ := List.pairwise_cons.mp hordered
    obtain ⟨hne, hnew⟩ := not_or.mp (mt List.mem_cons.mpr hnew)
    rw [insertOrdered]
    split
    · rename_i hlt
      rw [decide_eq_true_iff] at hlt
      refine List.pairwise_cons.mpr ⟨?_, hordered⟩
      intro other hother
      rcases List.mem_cons.mp hother with rfl | hother
      · exact hlt
      · exact String.lt_trans hlt (hfirst other hother)
    · rename_i hlt
      rw [decide_eq_true_iff] at hlt
      refine List.pairwise_cons.mpr ⟨?_, ih hrest hnew⟩
      intro other hother
      rcases mem_insertOrdered.mp hother with rfl | hother
      · exact Std.lt_of_le_of_ne (String.not_lt.mp hlt) (Ne.symm hne)
      · exact hfirst other hother

namespace RepoIndex

variable {index : RepoIndex}

/-- What comes of adding files, namespaces and manifests to the empty index. -/
inductive Reachable : RepoIndex → Prop
  | empty : Reachable {}
  | addFile {index : RepoIndex} (path : String) (language : Language) (before : Reachable index) :
      Reachable (index.addFile path language)
  | addNamespace {index : RepoIndex} (name : String) (language : Language)
      (before : Reachable index) : Reachable (index.addNamespace name language)
  | addManifest {index : RepoIndex} (manifest : Manifest) (before : Reachable index) :
      Reachable (index.addManifest manifest)

theorem contains_addFile (index : RepoIndex) (path : String) (language : Language)
    (other : String) :
    (index.addFile path language).contains other = (path == other || index.contains other) :=
  Std.HashMap.contains_insert

theorem language?_addFile (index : RepoIndex) (path : String) (language : Language)
    (other : String) :
    (index.addFile path language).language? other =
      if path == other then some language else index.language? other :=
  Std.HashMap.getElem?_insert

theorem named_addFile (index : RepoIndex) (path : String) (language : Language) (name : String) :
    (index.addFile path language).named.getD name [] =
      if Path.fileName path == name then
        if (index.named.getD (Path.fileName path) []).contains path then
          index.named.getD (Path.fileName path) []
        else insertOrdered (· < ·) path (index.named.getD (Path.fileName path) [])
      else index.named.getD name [] :=
  Std.HashMap.getD_insert

private theorem mem_named_addFile {path name other : String} {language : Language} :
    other ∈ (index.addFile path language).named.getD name [] ↔
      (other = path ∧ Path.fileName path = name) ∨ other ∈ index.named.getD name [] := by
  rw [named_addFile]
  by_cases hname : Path.fileName path = name
  · subst hname
    rw [if_pos (beq_self_eq_true _)]
    split
    · rename_i hcontains
      have hlisted := List.contains_iff_mem.mp hcontains
      constructor
      · exact Or.inr
      · rintro (⟨rfl, -⟩ | hmem)
        · exact hlisted
        · exact hmem
    · rw [mem_insertOrdered, and_iff_left rfl]
  · rw [if_neg (by simpa using hname)]
    constructor
    · exact Or.inr
    · rintro (⟨-, heq⟩ | hmem)
      · exact absurd heq hname
      · exact hmem

private theorem pairwise_named_addFile {path name : String} {language : Language}
    (h : ∀ name, (index.named.getD name []).Pairwise (· < ·)) :
    ((index.addFile path language).named.getD name []).Pairwise (· < ·) := by
  rw [named_addFile]
  split
  · split
    · exact h _
    · rename_i hcontains
      exact pairwise_insertOrdered (h _) (mt List.contains_iff_mem.mpr hcontains)
  · exact h name

theorem files_addManifest (index : RepoIndex) (manifest : Manifest) :
    (index.addManifest manifest).files = index.files := by
  rw [addManifest]
  split <;> rfl

private theorem named_addManifest (index : RepoIndex) (manifest : Manifest) :
    (index.addManifest manifest).named = index.named := by
  rw [addManifest]
  split <;> rfl

/-- The table of names lists the files under their names, and nothing else. -/
theorem Reachable.mem_named_iff (h : index.Reachable) {name path : String} :
    path ∈ index.named.getD name [] ↔ index.contains path = true ∧ Path.fileName path = name := by
  induction h with
  | empty => simp [contains]
  | addFile added language _ ih =>
    rw [mem_named_addFile, ih, contains_addFile, Bool.or_eq_true, beq_iff_eq]
    constructor
    · rintro (⟨rfl, hname⟩ | ⟨hcontains, hname⟩)
      · exact ⟨Or.inl rfl, hname⟩
      · exact ⟨Or.inr hcontains, hname⟩
    · rintro ⟨rfl | hcontains, hname⟩
      · exact Or.inl ⟨rfl, hname⟩
      · exact Or.inr ⟨hcontains, hname⟩
  | addNamespace added language _ ih => exact ih
  | addManifest manifest _ ih => rw [named_addManifest, contains, files_addManifest, ih, contains]

theorem Reachable.pairwise_named (h : index.Reachable) (name : String) :
    (index.named.getD name []).Pairwise (· < ·) := by
  induction h generalizing name with
  | empty => simp
  | addFile added language _ ih => exact pairwise_named_addFile ih
  | addNamespace added language _ ih => exact ih name
  | addManifest manifest _ ih =>
    rw [named_addManifest]
    exact ih name

theorem Reachable.contains_of_indexes (h : index.Reachable) {path : String}
    (hindexed : index.Indexes path) : index.contains path = true := by
  rcases hindexed with hcontains | ⟨name, hmem⟩
  · exact hcontains
  · exact (h.mem_named_iff.mp hmem).1

theorem fileName_of_isPathSuffix {suffix path : String} (h : isPathSuffix suffix path = true) :
    Path.fileName path = Path.fileName suffix := by
  rw [isPathSuffix, Bool.or_eq_true, beq_iff_eq, Text.endsWith_iff] at h
  rcases h with rfl | ⟨dir, hdir⟩
  · rfl
  · have heq : path = String.ofList dir ++ "/" ++ suffix := by
      apply String.toList_inj.mp
      rw [← hdir]
      simp
    rw [heq, Path.fileName_append]

/-- A search by suffix finds a file if any file ends in the suffix. -/
theorem Reachable.isSome_findBySuffix?_iff (h : index.Reachable) {suffix : String} :
    (index.findBySuffix? suffix).isSome = true ↔ ∃ path, index.contains path = true ∧
      isPathSuffix (String.ofList (suffix.toList.dropWhile (· == '/'))) path = true := by
  rw [findBySuffix?, List.find?_isSome]
  constructor
  · rintro ⟨path, hmem, hsuffix⟩
    exact ⟨path, (h.mem_named_iff.mp hmem).1, hsuffix⟩
  · rintro ⟨path, hcontains, hsuffix⟩
    exact ⟨path, h.mem_named_iff.mpr ⟨hcontains, fileName_of_isPathSuffix hsuffix⟩, hsuffix⟩

theorem Reachable.addSource (h : index.Reachable) (file : SourceFile) :
    (index.addSource file).Reachable :=
  List.foldlRecOn (motive := Reachable) file.declaredNamespaces _
    (h.addFile file.path file.language) fun _ before name _ => before.addNamespace name file.language

theorem reachable_build (files : List SourceFile) (manifests : List Manifest) :
    (build files manifests).Reachable := by
  have hsources : (files.foldl RepoIndex.addSource {}).Reachable :=
    List.foldlRecOn (motive := Reachable) files _ .empty fun _ before file _ => before.addSource file
  exact List.foldlRecOn (motive := Reachable) manifests _ hsources
    fun _ before manifest _ => before.addManifest manifest

def setLibrary : RepoIndex := ({} : RepoIndex).addFile "lib/set.rb" .ruby

theorem reachable_setLibrary : setLibrary.Reachable := .addFile "lib/set.rb" .ruby .empty

theorem contains_setLibrary (path : String) :
    setLibrary.contains path = ("lib/set.rb" == path) := by
  rw [setLibrary, contains_addFile, contains, Std.HashMap.contains_empty, Bool.or_false]

theorem language?_setLibrary (path : String) :
    setLibrary.language? path = if "lib/set.rb" == path then some .ruby else none := by
  rw [setLibrary, language?_addFile, language?, Std.HashMap.getElem?_empty]

end RepoIndex

end RepoGraph
