import RepoGraph.Proofs.Index.Additions
import RepoGraph.Proofs.Manifest.Declarations
import RepoGraph.Proofs.Path.Ancestors
import RepoGraph.Proofs.Resolve.Searches
import RepoGraph.Proofs.Text.ByteOrder

/-!
# The nearest manifest

The version of a package is looked up from the directory of the importing file upwards. It comes from
the deepest directory with a manifest that declares the package, and there from the manifest with the
smallest path. A manifest without the package does not end the search, and the order in which the
manifests were added does not show.
-/

namespace RepoGraph

open Text

namespace Manifest

def IsRead (manifest : Manifest) : Prop := ∃ content, parse manifest.path content = .ok manifest

theorem IsRead.dir_eq {manifest : Manifest} (h : manifest.IsRead) :
    manifest.dir = Path.parent manifest.path := by
  obtain ⟨content, hparse⟩ := h
  obtain ⟨kind, -, hat⟩ := isAt_of_parse hparse
  exact hat.dir_eq

/-- Whether a manifest tells a file the version of a package: it is one of the ecosystem, lies in
the directory of the file or in one above, and declares the package. -/
structure DeclaresFor (manifest : Manifest) (file : String) (ecosystem : Ecosystem)
    (package : String) : Prop where
  ecosystem_eq : manifest.kind.ecosystem = ecosystem
  encloses : Path.Encloses (Path.parent manifest.path) file
  declares : manifest.version? package ≠ none

end Manifest

namespace RepoIndex

variable {additions : List Addition} {manifest : Manifest} {dir file package version : String}
  {ecosystem : Ecosystem}

private theorem mem_manifests_iff :
    manifest ∈ (ofAdditions additions).manifests.getD dir [] ↔
      manifest ∈ addedManifests additions ∧ manifest.dir = dir := by
  rw [(manifests_ofAdditions_perm additions dir).mem_iff, List.mem_filter, decide_eq_true_iff]

private theorem pairwise_manifests (hdistinct : ((addedManifests additions).map (·.path)).Nodup)
    (dir : String) :
    ((ofAdditions additions).manifests.getD dir []).Pairwise fun a b => a.path < b.path := by
  have hpaths : (((ofAdditions additions).manifests.getD dir []).map (·.path)).Nodup := by
    rw [((manifests_ofAdditions_perm additions dir).map _).nodup_iff]
    exact hdistinct.sublist (List.filter_sublist.map _)
  refine ((manifests_ofAdditions_pairwise additions dir).and (List.pairwise_map.mp hpaths)).imp ?_
  rintro a b ⟨hafter, hne⟩
  exact Std.lt_of_le_of_ne (String.not_lt.mp hafter) hne

def versionIn? (index : RepoIndex) (ecosystem : Ecosystem) (package dir : String) :
    Option String :=
  ((index.manifests.getD dir []).filter (·.kind.ecosystem = ecosystem)).findSome?
    (·.version? package)

private theorem versionIn?_eq_some_iff
    (hdistinct : ((addedManifests additions).map (·.path)).Nodup) :
    (ofAdditions additions).versionIn? ecosystem package dir = some version ↔
      ∃ manifest ∈ addedManifests additions, manifest.dir = dir ∧
        manifest.kind.ecosystem = ecosystem ∧ manifest.version? package = some version ∧
        ∀ other ∈ addedManifests additions, other.dir = dir → other.kind.ecosystem = ecosystem →
          other.path < manifest.path → other.version? package = none := by
  rw [versionIn?, findSome?_eq_some_iff_of_pairwise (fun _ _ => String.lt_asymm)
    ((pairwise_manifests hdistinct dir).filter _)]
  simp only [List.mem_filter, mem_manifests_iff, decide_eq_true_eq, and_assoc, and_imp]

private theorem versionIn?_eq_none_iff :
    (ofAdditions additions).versionIn? ecosystem package dir = none ↔
      ∀ manifest ∈ addedManifests additions, manifest.dir = dir →
        manifest.kind.ecosystem = ecosystem → manifest.version? package = none := by
  rw [versionIn?, List.findSome?_eq_none_iff]
  simp only [List.mem_filter, mem_manifests_iff, decide_eq_true_eq, and_imp]

/-- Whether a manifest is the one that tells a file the version of a package: none that does lies
deeper, and none in its directory has a smaller path. -/
structure IsNearest (manifests : List Manifest) (file : String) (ecosystem : Ecosystem)
    (package : String) (manifest : Manifest) : Prop where
  mem : manifest ∈ manifests
  declaresFor : manifest.DeclaresFor file ecosystem package
  deepest : ∀ other ∈ manifests, other.DeclaresFor file ecosystem package →
    (Path.parent other.path).length ≤ (Path.parent manifest.path).length
  smallest : ∀ other ∈ manifests, other.DeclaresFor file ecosystem package →
    Path.parent other.path = Path.parent manifest.path → other ≠ manifest →
    bytes manifest.path < bytes other.path

theorem declaredVersion?_eq (index : RepoIndex) (file : String) (ecosystem : Ecosystem)
    (package : String) :
    index.declaredVersion? file ecosystem package =
      (Path.ancestors (Path.parent file)).findSome? (index.versionIn? ecosystem package) := rfl

private theorem versionIn?_eq_some_iff_declaresFor
    (hread : ∀ manifest ∈ addedManifests additions, manifest.IsRead)
    (hdistinct : ((addedManifests additions).map (·.path)).Nodup)
    (hencloses : Path.Encloses dir file) :
    (ofAdditions additions).versionIn? ecosystem package dir = some version ↔
      ∃ manifest ∈ addedManifests additions, Path.parent manifest.path = dir ∧
        manifest.DeclaresFor file ecosystem package ∧ manifest.version? package = some version ∧
        ∀ other ∈ addedManifests additions, other.DeclaresFor file ecosystem package →
          Path.parent other.path = dir → other ≠ manifest →
          bytes manifest.path < bytes other.path := by
  rw [versionIn?_eq_some_iff hdistinct]
  constructor
  · rintro ⟨manifest, hmem, hdir, hecosystem, hversion, hfirst⟩
    rw [(hread manifest hmem).dir_eq] at hdir
    refine ⟨manifest, hmem, hdir,
      ⟨hecosystem, hdir ▸ hencloses, hversion ▸ Option.some_ne_none version⟩, hversion, ?_⟩
    intro other hother hdeclares hdir' hne
    rw [← lt_iff_bytes_lt]
    apply Std.lt_of_le_of_ne
    · rw [← String.not_lt]
      intro hlt
      exact hdeclares.declares (hfirst other hother ((hread other hother).dir_eq.trans hdir')
        hdeclares.ecosystem_eq hlt)
    · intro hpath
      exact hne (List.inj_on_of_nodup_map hdistinct hother hmem hpath.symm)
  · rintro ⟨manifest, hmem, hdir, hdeclares, hversion, hfirst⟩
    refine ⟨manifest, hmem, (hread manifest hmem).dir_eq.trans hdir, hdeclares.ecosystem_eq,
      hversion, ?_⟩
    intro other hother hdir' hecosystem hlt
    rw [(hread other hother).dir_eq] at hdir'
    by_contra hsome
    have hne : other ≠ manifest := by
      rintro rfl
      exact String.lt_irrefl _ hlt
    have hbytes := hfirst other hother ⟨hecosystem, hdir' ▸ hencloses, hsome⟩ hdir' hne
    exact String.lt_asymm hlt (lt_iff_bytes_lt.mpr hbytes)

private theorem versionIn?_eq_none_iff_declaresFor
    (hread : ∀ manifest ∈ addedManifests additions, manifest.IsRead)
    (hencloses : Path.Encloses dir file) :
    (ofAdditions additions).versionIn? ecosystem package dir = none ↔
      ∀ manifest ∈ addedManifests additions, Path.parent manifest.path = dir →
        ¬ manifest.DeclaresFor file ecosystem package := by
  rw [versionIn?_eq_none_iff]
  constructor
  · intro hnone manifest hmem hdir hdeclares
    exact hdeclares.declares (hnone manifest hmem ((hread manifest hmem).dir_eq.trans hdir)
      hdeclares.ecosystem_eq)
  · intro hnone manifest hmem hdir hecosystem
    rw [(hread manifest hmem).dir_eq] at hdir
    by_contra hsome
    exact hnone manifest hmem hdir ⟨hecosystem, hdir ▸ hencloses, hsome⟩

private theorem declaredVersion?_eq_some_iff
    (hread : ∀ manifest ∈ addedManifests additions, manifest.IsRead)
    (hdistinct : ((addedManifests additions).map (·.path)).Nodup) :
    (ofAdditions additions).declaredVersion? file ecosystem package = some version ↔
      ∃ manifest, IsNearest (addedManifests additions) file ecosystem package manifest ∧
        manifest.version? package = some version := by
  rw [declaredVersion?_eq, findSome?_eq_some_iff_of_pairwise (fun _ _ => Nat.lt_asymm)
    (Path.pairwise_ancestors _)]
  simp only [Path.mem_ancestors_parent_iff]
  constructor
  · rintro ⟨dir, hencloses, hfound, hnone⟩
    obtain ⟨manifest, hmem, rfl, hdeclares, hversion, hfirst⟩ :=
      (versionIn?_eq_some_iff_declaresFor hread hdistinct hencloses).mp hfound
    refine ⟨manifest, ⟨hmem, hdeclares, ?_, hfirst⟩, hversion⟩
    intro other hother hdeclares'
    by_contra hdeeper
    have hmiss := hnone _ hdeclares'.encloses (Nat.lt_of_not_le hdeeper)
    exact (versionIn?_eq_none_iff_declaresFor hread hdeclares'.encloses).mp hmiss other hother rfl
      hdeclares'
  · rintro ⟨manifest, ⟨hmem, hdeclares, hdeepest, hsmallest⟩, hversion⟩
    refine ⟨Path.parent manifest.path, hdeclares.encloses, ?_, ?_⟩
    · exact (versionIn?_eq_some_iff_declaresFor hread hdistinct hdeclares.encloses).mpr
        ⟨manifest, hmem, rfl, hdeclares, hversion, hsmallest⟩
    · intro dir hencloses hdeeper
      refine (versionIn?_eq_none_iff_declaresFor hread hencloses).mpr ?_
      rintro other hother rfl hdeclares'
      exact Nat.not_lt.mpr (hdeepest other hother hdeclares') hdeeper

private theorem declaredVersion?_eq_none_iff
    (hread : ∀ manifest ∈ addedManifests additions, manifest.IsRead) :
    (ofAdditions additions).declaredVersion? file ecosystem package = none ↔
      ∀ manifest ∈ addedManifests additions, ¬ manifest.DeclaresFor file ecosystem package := by
  rw [declaredVersion?_eq, List.findSome?_eq_none_iff]
  simp only [Path.mem_ancestors_parent_iff]
  constructor
  · intro hnone manifest hmem hdeclares
    have hmiss := hnone _ hdeclares.encloses
    exact (versionIn?_eq_none_iff_declaresFor hread hdeclares.encloses).mp hmiss manifest hmem rfl
      hdeclares
  · intro hnone dir hencloses
    refine (versionIn?_eq_none_iff_declaresFor hread hencloses).mpr ?_
    exact fun manifest hmem _ => hnone manifest hmem

/-- The only manifest of an ecosystem above a file is the one that is asked. -/
theorem declaredVersion?_of_only (hmem : manifest ∈ addedManifests additions)
    (hecosystem : manifest.kind.ecosystem = ecosystem)
    (hencloses : Path.Encloses manifest.dir file)
    (honly : ∀ other ∈ addedManifests additions, other.kind.ecosystem = ecosystem →
      Path.Encloses other.dir file → other = manifest) :
    (ofAdditions additions).declaredVersion? file ecosystem package =
      manifest.version? package := by
  rw [declaredVersion?_eq]
  cases hfound : (Path.ancestors (Path.parent file)).findSome?
      ((ofAdditions additions).versionIn? ecosystem package) with
  | none =>
    have hmiss := List.findSome?_eq_none_iff.mp hfound _
      (Path.mem_ancestors_parent_iff.mpr hencloses)
    exact (versionIn?_eq_none_iff.mp hmiss manifest hmem rfl hecosystem).symm
  | some version =>
    obtain ⟨dir, hdir, hin⟩ := List.exists_of_findSome?_eq_some hfound
    obtain ⟨other, hother, hversion⟩ := List.exists_of_findSome?_eq_some hin
    rw [List.mem_filter, mem_manifests_iff, decide_eq_true_iff] at hother
    obtain ⟨⟨hadded, rfl⟩, hsame⟩ := hother
    rw [← honly other hadded hsame (Path.mem_ancestors_parent_iff.mp hdir), hversion]

/-- A manifest that is of another ecosystem or does not lie above the file tells it nothing. -/
theorem declaredVersion?_addManifest (index : RepoIndex)
    (h : manifest.kind.ecosystem ≠ ecosystem ∨ ¬ Path.Encloses manifest.dir file) :
    (index.addManifest manifest).declaredVersion? file ecosystem package =
      index.declaredVersion? file ecosystem package := by
  rw [declaredVersion?_eq, declaredVersion?_eq]
  apply findSome?_congr
  intro dir hdir
  rw [Path.mem_ancestors_parent_iff] at hdir
  rw [versionIn?, versionIn?, manifests_addManifest]
  split
  · rename_i heq
    subst heq
    have hecosystem := h.resolve_right (not_not_intro hdir)
    rw [filter_insertOrdered_of_neg (by simpa using hecosystem)]
  · rfl

/-- The nearest manifest that declares a package gives its version, there is none if no manifest
does, and a manifest of another ecosystem or of a directory elsewhere makes no difference. -/
theorem declaredVersion?_nearest (additions : List Addition)
    (hread : ∀ manifest ∈ addedManifests additions, manifest.IsRead)
    (hdistinct : ((addedManifests additions).map (·.path)).Nodup) (file : String)
    (ecosystem : Ecosystem) (package : String) :
    (∀ version, (ofAdditions additions).declaredVersion? file ecosystem package = some version ↔
      ∃ manifest, IsNearest (addedManifests additions) file ecosystem package manifest ∧
        manifest.version? package = some version) ∧
    ((ofAdditions additions).declaredVersion? file ecosystem package = none ↔
      ∀ manifest ∈ addedManifests additions, ¬ manifest.DeclaresFor file ecosystem package) ∧
    ∀ manifest : Manifest, manifest.IsRead →
      (manifest.kind.ecosystem ≠ ecosystem ∨
        ¬ Path.Encloses (Path.parent manifest.path) file) →
      (ofAdditions (additions ++ [.manifest manifest])).declaredVersion? file ecosystem package =
        (ofAdditions additions).declaredVersion? file ecosystem package := by
  refine ⟨fun version => declaredVersion?_eq_some_iff hread hdistinct,
    declaredVersion?_eq_none_iff hread, ?_⟩
  intro manifest hmanifest hother
  rw [ofAdditions_concat]
  apply declaredVersion?_addManifest
  rwa [hmanifest.dir_eq]

def requestsAt (path version : String) : Manifest :=
  { path, dir := Path.parent path, kind := .requirements, dependencies := [("requests", version)] }

private theorem isRead_requestsAt (content : String) {path version : String}
    (hkind : ManifestKind.ofFileName? (Path.fileName path) = some .requirements)
    (hlines : Manifest.requirementLines content.toList = [("requests", version)]) :
    (requestsAt path version).IsRead := by
  have hkey : ManifestKind.requirements.key "requests" = "requests" := by decide
  refine ⟨content, ?_⟩
  rw [requestsAt, Manifest.parse, hkind]
  simp [Manifest.read, hlines, Manifest.declareAll, Manifest.declare, Manifest.empty, hkey]

/-- Two files in the directory above that of the importing file, and one at the root. -/
theorem declaredVersion?_nearest_requests :
    let additions : List Addition := [.manifest (requestsAt "requirements.txt" "==1.0"),
      .manifest (requestsAt "app/requirements-test.txt" "==3.0"), .file "app/web/a.py" .python,
      .manifest (requestsAt "app/requirements-dev.txt" "==2.0")]
    (∀ manifest ∈ addedManifests additions, manifest.IsRead) ∧
      ((addedManifests additions).map (·.path)).Nodup ∧
      (ofAdditions additions).declaredVersion? "app/web/a.py" .pypi "requests" = some "==2.0" := by
  intro additions
  have hread : ∀ manifest ∈ addedManifests additions, manifest.IsRead := by
    intro manifest hmanifest
    have hcases : manifest = requestsAt "requirements.txt" "==1.0" ∨
        manifest = requestsAt "app/requirements-test.txt" "==3.0" ∨
        manifest = requestsAt "app/requirements-dev.txt" "==2.0" := by
      revert manifest
      decide
    rcases hcases with rfl | rfl | rfl
    · exact isRead_requestsAt "requests==1.0" (by decide) (by decide)
    · exact isRead_requestsAt "requests==3.0" (by decide) (by decide)
    · exact isRead_requestsAt "requests==2.0" (by decide) (by decide)
  have hdistinct : ((addedManifests additions).map (·.path)).Nodup := by decide
  have hnearest : IsNearest (addedManifests additions) "app/web/a.py" .pypi "requests"
      (requestsAt "app/requirements-dev.txt" "==2.0") := by
    refine ⟨by decide, ⟨rfl, Or.inr ⟨"web/a.py", by decide⟩, by decide⟩, ?_, ?_⟩
    · intro other hother hdeclares
      clear hdeclares
      revert other
      decide
    · intro other hother hdeclares
      clear hdeclares
      rw [← lt_iff_bytes_lt]
      revert other
      decide
  refine ⟨hread, hdistinct, ?_⟩
  rw [(declaredVersion?_nearest additions hread hdistinct _ _ _).1]
  exact ⟨_, hnearest, by decide⟩

end RepoIndex

end RepoGraph
