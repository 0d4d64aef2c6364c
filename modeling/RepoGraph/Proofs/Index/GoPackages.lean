import RepoGraph.Proofs.Index.Additions
import RepoGraph.Proofs.Resolve.Searches

/-!
# Directories of Go packages

An index asks its Go modules in an order, the longer path first, and takes the first one that a
path lies in. If the paths of the modules differ, that is the innermost one, whatever manifests were
added and in whatever order.
-/

namespace RepoGraph

open Text

/-- Whether a manifest is the `go.mod` of the module with a path. -/
def Manifest.IsOfModule (manifest : Manifest) (module : String) : Prop :=
  manifest.kind = .goMod ∧ manifest.modulePath = some module

def modulePaths (manifests : List Manifest) : List String :=
  (manifests.filter (·.kind = .goMod)).filterMap (·.modulePath)

/-- Whether an import path is that of a module, or goes on behind it with a slash and a rest. -/
def IsPathIn (module imported rest : String) : Prop :=
  (imported = module ∧ rest = "") ∨ imported = module ++ "/" ++ rest

section Nesting

variable {module other imported rest rest' : String}

private theorem utf8ByteSize_le_of_isPrefix (h : module.toList <+: other.toList) :
    module.utf8ByteSize ≤ other.utf8ByteSize := by
  obtain ⟨more, hmore⟩ := h
  have heq : other = module ++ String.ofList more := by
    apply String.toList_inj.mp
    rw [← hmore, String.toList_append, String.toList_ofList]
  rw [heq, String.utf8ByteSize_append]
  exact Nat.le_add_right _ _

theorem IsPathIn.isPrefix (h : IsPathIn module imported rest) :
    module.toList <+: imported.toList := by
  rcases h with ⟨rfl, -⟩ | rfl
  · exact List.prefix_rfl
  · rw [String.append_assoc, String.toList_append]
    exact List.prefix_append _ _

variable (h : IsPathIn module imported rest) (h' : IsPathIn other imported rest')
include h h'

private theorem IsPathIn.isPrefix_of_utf8ByteSize_le
    (hsize : module.utf8ByteSize ≤ other.utf8ByteSize) :
    module.toList <+: other.toList := by
  rcases List.prefix_or_prefix_of_prefix h.isPrefix h'.isPrefix with hprefix | ⟨more, hmore⟩
  · exact hprefix
  · have heq : module = other ++ String.ofList more := by
      apply String.toList_inj.mp
      rw [← hmore, String.toList_append, String.toList_ofList]
    rw [heq, String.utf8ByteSize_append] at hsize
    have hnil : String.ofList more = "" := String.utf8ByteSize_eq_zero_iff.mp (by omega)
    have hsame : module = other := by rw [heq, hnil, String.append_empty]
    exact hsame ▸ List.prefix_rfl

theorem IsPathIn.length_le_iff :
    module.length ≤ other.length ↔ module.utf8ByteSize ≤ other.utf8ByteSize := by
  constructor
  · intro hlength
    rw [← String.length_toList, ← String.length_toList] at hlength
    exact utf8ByteSize_le_of_isPrefix
      (List.prefix_of_prefix_length_le h.isPrefix h'.isPrefix hlength)
  · intro hsize
    rw [← String.length_toList, ← String.length_toList]
    exact (h.isPrefix_of_utf8ByteSize_le h' hsize).length_le

theorem IsPathIn.eq_of_length_eq (hlength : module.length = other.length) : module = other := by
  rw [← String.length_toList, ← String.length_toList] at hlength
  apply String.toList_inj.mp
  exact (List.prefix_of_prefix_length_le h.isPrefix h'.isPrefix hlength.le).eq_of_length hlength

end Nesting

namespace GoModule

variable {a b c : GoModule} {imported dir : String}

private theorem precedes_iff : a.precedes b = true ↔ b.path.utf8ByteSize < a.path.utf8ByteSize ∨
    (a.path.utf8ByteSize = b.path.utf8ByteSize ∧ a.path < b.path) := by
  rw [precedes, Bool.or_eq_true, Bool.and_eq_true, decide_eq_true_iff, decide_eq_true_iff,
    beq_iff_eq]

private theorem precedes_asymm (h : a.precedes b = true) : ¬ b.precedes a = true := by
  rw [precedes_iff] at h ⊢
  rintro (hsize | ⟨hsize, hpath⟩)
  · omega
  · exact String.lt_asymm hpath (h.resolve_left (by omega)).2

private theorem precedes_trans (h : a.precedes b = true) (h' : b.precedes c = true) :
    a.precedes c = true := by
  rw [precedes_iff] at h h' ⊢
  rcases h with h | ⟨hsize, hpath⟩
  · left
    omega
  · rcases h' with h' | ⟨hsize', hpath'⟩
    · left
      omega
    · exact Or.inr ⟨hsize.trans hsize', String.lt_trans hpath hpath'⟩

private theorem precedes_of_ne (hne : a.path ≠ b.path) (h : b.precedes a = false) :
    a.precedes b = true := by
  rw [← Bool.not_eq_true, precedes_iff, not_or] at h
  rw [precedes_iff]
  rcases Nat.lt_trichotomy a.path.utf8ByteSize b.path.utf8ByteSize with hlt | heq | hgt
  · exact absurd hlt h.1
  · refine Or.inr ⟨heq, Std.lt_of_le_of_ne ?_ hne⟩
    rw [← String.not_lt]
    exact fun hlt => h.2 ⟨heq.symm, hlt⟩
  · exact Or.inl hgt

private theorem packageDir?_eq_some_iff :
    a.packageDir? imported = some dir ↔
      ∃ rest, IsPathIn a.path imported rest ∧ dir = Path.join a.dir rest := by
  rw [packageDir?]
  split
  · rename_i heq
    subst heq
    constructor
    · rintro h
      refine ⟨"", Or.inl ⟨rfl, rfl⟩, ?_⟩
      rw [Path.join_root_right]
      exact (Option.some.inj h).symm
    · rintro ⟨rest, ⟨-, rfl⟩ | hrest, rfl⟩
      · rw [Path.join_root_right]
      · -- No path goes on behind itself.
        have hsize := congrArg String.utf8ByteSize hrest
        rw [String.utf8ByteSize_append, String.utf8ByteSize_append] at hsize
        have hslash : "/".utf8ByteSize = 1 := rfl
        omega
  · rename_i hne
    rw [Option.map_eq_some_iff]
    constructor
    · rintro ⟨rest, hrest, rfl⟩
      refine ⟨String.ofList rest, Or.inr ?_, rfl⟩
      apply String.toList_inj.mp
      rw [stripStart?_eq_some_iff.mp hrest]
      simp
    · rintro ⟨rest, ⟨heq, -⟩ | rfl, rfl⟩
      · exact absurd heq hne
      · refine ⟨rest.toList, stripStart?_eq_some_iff.mpr ?_, by rw [String.ofList_toList]⟩
        rw [String.toList_append, String.toList_append]
        rfl

private theorem packageDir?_eq_none_iff :
    a.packageDir? imported = none ↔ ∀ rest, ¬ IsPathIn a.path imported rest := by
  rw [Option.eq_none_iff_forall_ne_some]
  constructor
  · intro h rest hrest
    exact h _ (packageDir?_eq_some_iff.mpr ⟨rest, hrest, rfl⟩)
  · intro h dir hdir
    obtain ⟨rest, hrest, -⟩ := packageDir?_eq_some_iff.mp hdir
    exact h rest hrest

end GoModule

namespace RepoIndex

variable {additions : List Addition} {manifest : Manifest} {module : GoModule}

private theorem moduleOf?_eq_some_iff :
    moduleOf? manifest = some module ↔
      manifest.IsOfModule module.path ∧ module.dir = manifest.dir := by
  obtain ⟨path, dir⟩ := module
  rw [moduleOf?, Manifest.IsOfModule]
  split
  · rename_i hkind
    rw [Option.map_eq_some_iff, and_iff_right hkind]
    simp only [GoModule.mk.injEq, eq_comm]
    constructor
    · rintro ⟨path, hpath, rfl, rfl⟩
      exact ⟨hpath, rfl⟩
    · rintro ⟨hpath, rfl⟩
      exact ⟨path, hpath, rfl, rfl⟩
  · rename_i hkind
    constructor
    · intro h
      cases h
    · rintro ⟨⟨heq, -⟩, -⟩
      exact absurd heq hkind

private theorem mem_goModules_iff :
    module ∈ (ofAdditions additions).goModules ↔
      ∃ manifest ∈ addedManifests additions,
        manifest.IsOfModule module.path ∧ module.dir = manifest.dir := by
  rw [(goModules_ofAdditions_perm additions).mem_iff, List.mem_filterMap]
  simp only [moduleOf?_eq_some_iff]

private theorem map_path_filterMap_moduleOf? (manifests : List Manifest) :
    (manifests.filterMap moduleOf?).map (·.path) = modulePaths manifests := by
  rw [modulePaths, List.map_filterMap, List.filterMap_filter]
  congr 1
  funext manifest
  rw [moduleOf?]
  by_cases hkind : manifest.kind = .goMod
  · rw [if_pos hkind, if_pos (by simpa using hkind), Option.map_map]
    exact Option.map_id'
  · rw [if_neg hkind, if_neg (by simpa using hkind)]
    rfl

/-- If the paths of the modules differ, the modules come in their order. -/
theorem pairwise_goModules (hdistinct : (modulePaths (addedManifests additions)).Nodup) :
    (ofAdditions additions).goModules.Pairwise fun a b => a.precedes b = true := by
  have hsorted := pairwise_not_before_ofAdditions goModules rfl goModules_add
    (fun _ _ h => Bool.eq_false_of_not_eq_true (GoModule.precedes_asymm h))
    (fun _ _ _ => GoModule.precedes_trans) additions
  have hpaths : ((ofAdditions additions).goModules.map (·.path)).Nodup := by
    rw [((goModules_ofAdditions_perm additions).map _).nodup_iff, map_path_filterMap_moduleOf?]
    exact hdistinct
  refine (hsorted.and (List.pairwise_map.mp hpaths)).imp ?_
  rintro a b ⟨hafter, hne⟩
  exact GoModule.precedes_of_ne hne hafter

/-- Whether an import path lies in the module of a manifest, and in no longer one. -/
structure IsInnermost (manifests : List Manifest) (imported : String) (manifest : Manifest)
    (module rest : String) : Prop where
  mem : manifest ∈ manifests
  isOfModule : manifest.IsOfModule module
  inside : IsPathIn module imported rest
  longest : ∀ other ∈ manifests, ∀ outer rest', other.IsOfModule outer →
    IsPathIn outer imported rest' → outer.length ≤ module.length

private theorem isSome_goPackageDir?_iff {imported : String} :
    ((ofAdditions additions).goPackageDir? imported).isSome = true ↔
      ∃ manifest ∈ addedManifests additions, ∃ module rest,
        manifest.IsOfModule module ∧ IsPathIn module imported rest := by
  rw [goPackageDir?, List.findSome?_isSome_iff]
  constructor
  · rintro ⟨module, hmodule, hsome⟩
    obtain ⟨manifest, hmanifest, hof, -⟩ := mem_goModules_iff.mp hmodule
    obtain ⟨dir, hdir⟩ := Option.isSome_iff_exists.mp hsome
    obtain ⟨rest, hrest, -⟩ := GoModule.packageDir?_eq_some_iff.mp hdir
    exact ⟨manifest, hmanifest, module.path, rest, hof, hrest⟩
  · rintro ⟨manifest, hmanifest, module, rest, hof, hrest⟩
    refine ⟨⟨module, manifest.dir⟩, mem_goModules_iff.mpr ⟨manifest, hmanifest, hof, rfl⟩, ?_⟩
    exact Option.isSome_iff_exists.mpr ⟨_, GoModule.packageDir?_eq_some_iff.mpr ⟨rest, hrest, rfl⟩⟩

/-- The directory of a package is found exactly if its import path lies in some module, and then
below the directory of the innermost one. -/
theorem goPackageDir?_ofAdditions (additions : List Addition)
    (hdistinct : (modulePaths (addedManifests additions)).Nodup) (imported : String) :
    (((ofAdditions additions).goPackageDir? imported).isSome = true ↔
      ∃ manifest ∈ addedManifests additions, ∃ module rest,
        manifest.IsOfModule module ∧ IsPathIn module imported rest) ∧
    ∀ dir, (ofAdditions additions).goPackageDir? imported = some dir ↔
      ∃ manifest module rest, IsInnermost (addedManifests additions) imported manifest module rest ∧
        dir = Path.join manifest.dir rest := by
  refine ⟨isSome_goPackageDir?_iff, ?_⟩
  intro dir
  rw [goPackageDir?, findSome?_eq_some_iff_of_pairwise (fun _ _ => GoModule.precedes_asymm)
    (pairwise_goModules hdistinct)]
  constructor
  · rintro ⟨module, hmodule, hdir, hnone⟩
    obtain ⟨manifest, hmanifest, hof, hplace⟩ := mem_goModules_iff.mp hmodule
    obtain ⟨rest, hrest, rfl⟩ := GoModule.packageDir?_eq_some_iff.mp hdir
    refine ⟨manifest, module.path, rest, ⟨hmanifest, hof, hrest, ?_⟩, by rw [hplace]⟩
    intro other hother outer rest' hofOther hrest'
    by_contra hlonger
    -- A longer module would have been asked before.
    have hasked : (⟨outer, other.dir⟩ : GoModule).precedes module = true := by
      rw [hrest'.length_le_iff hrest] at hlonger
      exact GoModule.precedes_iff.mpr (Or.inl (Nat.lt_of_not_le hlonger))
    have hmem : ⟨outer, other.dir⟩ ∈ (ofAdditions additions).goModules :=
      mem_goModules_iff.mpr ⟨other, hother, hofOther, rfl⟩
    exact GoModule.packageDir?_eq_none_iff.mp (hnone _ hmem hasked) rest' hrest'
  · rintro ⟨manifest, module, rest, ⟨hmanifest, hof, hrest, hlongest⟩, rfl⟩
    refine ⟨⟨module, manifest.dir⟩, mem_goModules_iff.mpr ⟨manifest, hmanifest, hof, rfl⟩,
      GoModule.packageDir?_eq_some_iff.mpr ⟨rest, hrest, rfl⟩, ?_⟩
    intro other hother hasked
    obtain ⟨manifest', hmanifest', hof', -⟩ := mem_goModules_iff.mp hother
    rw [GoModule.packageDir?_eq_none_iff]
    intro rest' hrest'
    have hlength := hlongest manifest' hmanifest' other.path rest' hof' hrest'
    have hsize := (hrest'.length_le_iff hrest).mp hlength
    rcases GoModule.precedes_iff.mp hasked with hlonger | ⟨heq, hpath⟩
    · exact absurd hsize (Nat.not_le.mpr hlonger)
    · have hback := (hrest.length_le_iff hrest').mpr heq.ge
      have hpaths := hrest'.eq_of_length_eq hrest (Nat.le_antisymm hlength hback)
      rw [hpaths] at hpath
      exact String.lt_irrefl _ hpath

def goModOf (dir module : String) : Manifest :=
  { path := Path.join dir "go.mod", dir, kind := .goMod, modulePath := some module }

/-- A module in another one, and one whose path only starts with the same characters. -/
theorem goPackageDir?_ofAdditions_shop :
    let additions : List Addition := [.manifest (goModOf "" "m.io/shop"),
      .manifest { path := "package.json", dir := "", kind := .packageJson }, .file "main.go" .go,
      .manifest (goModOf "tools" "m.io/shop/tools"), .manifest (goModOf "old" "m.io/shop/too")]
    (modulePaths (addedManifests additions)).Nodup ∧
      (ofAdditions additions).goPackageDir? "m.io/shop/tools/gen" = some "tools/gen" := by
  intro additions
  have hdistinct : (modulePaths (addedManifests additions)).Nodup := by decide
  refine ⟨hdistinct, ?_⟩
  rw [(goPackageDir?_ofAdditions additions hdistinct _).2]
  refine ⟨goModOf "tools" "m.io/shop/tools", "m.io/shop/tools", "gen",
    ⟨by decide, ⟨rfl, rfl⟩, Or.inr (by decide), ?_⟩, by decide⟩
  intro other hother outer rest hof hinside
  have hpath : outer ∈ modulePaths (addedManifests additions) :=
    List.mem_filterMap.mpr ⟨other, List.mem_filter.mpr ⟨hother, by simpa using hof.1⟩, hof.2⟩
  have hshort : ∀ outer ∈ modulePaths (addedManifests additions), outer.length ≤ 15 := by decide
  exact hshort outer hpath

end RepoIndex

end RepoGraph
