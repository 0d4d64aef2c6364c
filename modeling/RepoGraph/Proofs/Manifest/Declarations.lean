import RepoGraph.Manifest.Reader

/-!
# What a manifest declares

Reading a manifest adds declarations to an empty one. Only the declarations and the name change: path,
directory and kind are those of the file. Of the declarations of one name the first is kept, so that
a name stands for one version.
-/

namespace RepoGraph.Manifest

variable {manifest : Manifest}

private theorem declare_eq (manifest : Manifest) (name version : String) :
    ∃ dependencies, manifest.declare name version = { manifest with dependencies } := by
  rw [declare]
  split
  · exact ⟨manifest.dependencies, rfl⟩
  · exact ⟨_, rfl⟩

theorem kind_declare (manifest : Manifest) (name version : String) :
    (manifest.declare name version).kind = manifest.kind := by
  obtain ⟨dependencies, heq⟩ := manifest.declare_eq name version
  rw [heq]

private theorem declareAll_cons (manifest : Manifest) (name version : String)
    (rest : List (String × String)) :
    manifest.declareAll ((name, version) :: rest) = (manifest.declare name version).declareAll rest :=
  rfl

theorem declareAll_eq (manifest : Manifest) (declarations : List (String × String)) :
    ∃ dependencies, manifest.declareAll declarations = { manifest with dependencies } := by
  induction declarations generalizing manifest with
  | nil => exact ⟨manifest.dependencies, rfl⟩
  | cons declaration rest ih =>
    obtain ⟨name, version⟩ := declaration
    obtain ⟨first, hfirst⟩ := manifest.declare_eq name version
    obtain ⟨dependencies, hrest⟩ := ih { manifest with dependencies := first }
    exact ⟨dependencies, by rw [declareAll_cons, hfirst, hrest]⟩

/-- The manifest of a file lies at its path, and is of the kind that its name tells. -/
structure IsAt (manifest : Manifest) (path : String) (kind : ManifestKind) : Prop where
  path_eq : manifest.path = path
  dir_eq : manifest.dir = Path.parent path
  kind_eq : manifest.kind = kind

theorem isAt_empty (path : String) (kind : ManifestKind) : (empty path kind).IsAt path kind :=
  ⟨rfl, rfl, rfl⟩

theorem IsAt.declareAll {path : String} {kind : ManifestKind} (h : manifest.IsAt path kind)
    (declarations : List (String × String)) : (manifest.declareAll declarations).IsAt path kind := by
  obtain ⟨dependencies, heq⟩ := declareAll_eq manifest declarations
  rw [heq]
  exact ⟨h.path_eq, h.dir_eq, h.kind_eq⟩

theorem IsAt.foldl_addGoStatement {path : String} {kind : ManifestKind}
    (h : manifest.IsAt path kind) (statements : List GoStatement) :
    (statements.foldl addGoStatement manifest).IsAt path kind := by
  refine List.foldlRecOn (motive := fun manifest => IsAt manifest path kind) statements _ h ?_
  intro manifest h statement _
  cases statement with
  | module path => exact ⟨h.path_eq, h.dir_eq, h.kind_eq⟩
  | requires module version => exact h.declareAll [(module, version)]

theorem isAt_of_parse {path content : String} (h : parse path content = .ok manifest) :
    ∃ kind, ManifestKind.ofFileName? (Path.fileName path) = some kind ∧ manifest.IsAt path kind := by
  unfold parse at h
  split at h
  · rename_i kind hkind
    refine ⟨kind, hkind, ?_⟩
    unfold read at h
    cases kind <;> dsimp only at h
    case packageJson | composerJson =>
      split at h <;> cases h
      exact IsAt.declareAll ⟨rfl, rfl, rfl⟩ _
    case cargoToml | pyprojectToml =>
      split at h <;> cases h
      exact IsAt.declareAll ⟨rfl, rfl, rfl⟩ _
    case goMod =>
      cases h
      exact (isAt_empty path .goMod).foldl_addGoStatement _
    case requirements | gemfile =>
      cases h
      exact (isAt_empty _ _).declareAll _
  · cases h

private theorem lookup_declare (manifest : Manifest) (name version : String) {key : String}
    (hkey : key ≠ "") :
    (manifest.declare name version).dependencies.lookup key =
      (manifest.dependencies.lookup key).or
        (if manifest.kind.key name = key then some version else none) := by
  rw [declare]
  by_cases heq : manifest.kind.key name = key
  · subst heq
    rw [if_pos rfl]
    split
    · rename_i hskip
      rw [Bool.or_eq_true, String.isEmpty_iff, or_iff_right hkey] at hskip
      obtain ⟨known, hknown⟩ := Option.isSome_iff_exists.mp hskip
      rw [hknown, Option.some_or]
    · rw [List.lookup_append, List.lookup_cons_self]
  · rw [if_neg heq, Option.or_none]
    split
    · rfl
    · have hne : (key == manifest.kind.key name) = false := by simpa using Ne.symm heq
      rw [List.lookup_append, List.lookup_cons, hne, List.lookup_nil, Option.or_none]

/-- Of the declarations of one name, the first counts. -/
theorem lookup_declareAll (manifest : Manifest) (declarations : List (String × String))
    {key : String} (hkey : key ≠ "") :
    (manifest.declareAll declarations).dependencies.lookup key =
      (manifest.dependencies.lookup key).or
        ((declarations.find? fun declaration => manifest.kind.key declaration.1 = key).map
          (·.2)) := by
  induction declarations generalizing manifest with
  | nil => exact Option.or_none.symm
  | cons declaration rest ih =>
    obtain ⟨name, version⟩ := declaration
    rw [declareAll_cons, ih, lookup_declare manifest _ _ hkey, kind_declare, Option.or_assoc,
      List.find?_cons]
    by_cases heq : manifest.kind.key name = key
    · simp [heq]
    · simp [heq]

private theorem nodup_declare (manifest : Manifest) (name version : String)
    (h : (manifest.dependencies.map (·.1)).Nodup) :
    ((manifest.declare name version).dependencies.map (·.1)).Nodup := by
  rw [declare]
  split
  · exact h
  · rename_i hnew
    obtain ⟨-, hnone⟩ := not_or.mp (mt Bool.or_eq_true_iff.mpr hnew)
    rw [Option.not_isSome_iff_eq_none, List.lookup_eq_none_iff] at hnone
    rw [List.map_append, List.map_singleton, List.nodup_append]
    refine ⟨h, List.pairwise_singleton _ _, ?_⟩
    rintro key hkey other hother rfl
    obtain ⟨dependency, hmem, rfl⟩ := List.mem_map.mp hkey
    have hne := hnone dependency hmem
    rw [List.mem_singleton.mp hother] at hne
    simp at hne

theorem nodup_declareAll (manifest : Manifest) (declarations : List (String × String))
    (h : (manifest.dependencies.map (·.1)).Nodup) :
    ((manifest.declareAll declarations).dependencies.map (·.1)).Nodup :=
  List.foldlRecOn (motive := fun manifest : Manifest => (manifest.dependencies.map (·.1)).Nodup)
    declarations _ h fun manifest h declaration _ =>
      nodup_declare manifest declaration.1 declaration.2 h

private theorem ne_empty_of_mem_declare {manifest : Manifest} {name version : String}
    (h : ∀ dependency ∈ manifest.dependencies, dependency.1 ≠ "") :
    ∀ dependency ∈ (manifest.declare name version).dependencies, dependency.1 ≠ "" := by
  rw [declare]
  split
  · exact h
  · rename_i hnew
    obtain ⟨hkey, -⟩ := not_or.mp (mt Bool.or_eq_true_iff.mpr hnew)
    intro dependency hmem
    rcases List.mem_append.mp hmem with hknown | hadded
    · exact h dependency hknown
    · rw [List.mem_singleton.mp hadded]
      exact mt String.isEmpty_iff.mpr hkey

theorem ne_empty_of_mem_declareAll {manifest : Manifest} {declarations : List (String × String)}
    (h : ∀ dependency ∈ manifest.dependencies, dependency.1 ≠ "") :
    ∀ dependency ∈ (manifest.declareAll declarations).dependencies, dependency.1 ≠ "" :=
  List.foldlRecOn
    (motive := fun manifest : Manifest => ∀ dependency ∈ manifest.dependencies, dependency.1 ≠ "")
    declarations _ h fun _ h _ _ => ne_empty_of_mem_declare h

end RepoGraph.Manifest
