import RepoGraph.Proofs.Index.GoPackages
import RepoGraph.Proofs.Manifest.Declarations
import RepoGraph.Proofs.Text.Lower

/-!
# Requirements of a Go module

A `go.mod` requires modules, and is asked for packages. The version of a package is that of the
longest required module that the package is or lies in, where names are compared in lower case and
the first requirement of a module counts.
-/

namespace RepoGraph

open Text

namespace Manifest

def GoStatement.requirement? : GoStatement → Option (String × String)
  | .module _ => none
  | .requires name version => some (name, version)

/-- The modules that a `go.mod` requires, with their versions, in the order of its lines. -/
def goRequirements (content : String) : List (String × String) :=
  (goStatements false (lines content.toList)).filterMap GoStatement.requirement?

def IsWord (name : String) : Prop := name ≠ "" ∧ ∀ c ∈ name.toList, isBlank c = false

private theorem isWord_of_goRequirement? {line : List Char} {module version : String}
    (h : goRequirement? line = some (.requires module version)) : IsWord module := by
  rw [goRequirement?] at h
  split at h
  · rename_i name word rest hwords
    cases h
    have hname : name ∈ words line := by
      rw [hwords]
      exact List.mem_cons_self
    obtain ⟨hne, hblank⟩ := of_mem_words hname
    rw [IsWord, String.toList_ofList]
    exact ⟨mt String.ofList_eq_empty_iff.mp hne, hblank⟩
  · cases h

private theorem isWord_of_readGoLine {inList : Bool} {line : List Char} {module version : String}
    (h : (readGoLine inList line).2 = some (.requires module version)) : IsWord module := by
  unfold readGoLine at h
  split at h
  · cases h
  · split at h
    · split at h
      · cases h
      · exact isWord_of_goRequirement? h
    · split at h
      · cases h
      · split at h
        · cases h
        · exact isWord_of_goRequirement? h
        · cases h

private theorem isWord_of_mem_goStatements {inList : Bool} {rest : List (List Char)}
    {module version : String} (h : .requires module version ∈ goStatements inList rest) :
    IsWord module := by
  induction rest generalizing inList with
  | nil => cases h
  | cons line rest ih =>
    rcases List.mem_append.mp h with hline | hrest
    · exact isWord_of_readGoLine (Option.mem_toList.mp hline)
    · exact ih hrest

private theorem isWord_of_mem_goRequirements {content : String} {requirement : String × String}
    (h : requirement ∈ goRequirements content) : IsWord requirement.1 := by
  obtain ⟨statement, hmem, hrequires⟩ := List.mem_filterMap.mp h
  cases statement with
  | module path => cases hrequires
  | requires name version =>
    obtain rfl := Option.some.inj hrequires
    exact isWord_of_mem_goStatements hmem

theorem IsWord.key_eq {name : String} (h : IsWord name) :
    ManifestKind.goMod.key name = lowered name := by
  rw [ManifestKind.key, trim_of_forall_isBlank h.2, lowered]

private theorem dependencies_declare_congr {a b : Manifest} (hkind : a.kind = b.kind)
    (hdeclared : a.dependencies = b.dependencies) (name version : String) :
    (a.declare name version).dependencies = (b.declare name version).dependencies := by
  rw [declare, declare, hkind, hdeclared]
  split
  · exact hdeclared
  · rfl

private theorem dependencies_declareAll_congr {a b : Manifest} (hkind : a.kind = b.kind)
    (hdeclared : a.dependencies = b.dependencies) (declarations : List (String × String)) :
    (a.declareAll declarations).dependencies = (b.declareAll declarations).dependencies := by
  induction declarations generalizing a b with
  | nil => exact hdeclared
  | cons declaration rest ih =>
    exact ih (by rw [kind_declare, kind_declare, hkind])
      (dependencies_declare_congr hkind hdeclared declaration.1 declaration.2)

private theorem dependencies_foldl_addGoStatement (manifest : Manifest)
    (statements : List GoStatement) :
    (statements.foldl addGoStatement manifest).dependencies =
      (manifest.declareAll (statements.filterMap GoStatement.requirement?)).dependencies := by
  induction statements generalizing manifest with
  | nil => rfl
  | cons statement rest ih =>
    rw [List.foldl_cons, ih]
    cases statement with
    | module path =>
      exact dependencies_declareAll_congr (a := manifest.addGoStatement (.module path))
        (b := manifest) rfl rfl _
    | requires name version => rfl

structure IsGoMod (manifest : Manifest) (content : String) : Prop where
  kind_eq : manifest.kind = .goMod
  dependencies_eq : manifest.dependencies =
    ((empty "" .goMod).declareAll (goRequirements content)).dependencies

theorem isGoMod_of_parse {manifest : Manifest} {path content : String}
    (h : parse path content = .ok manifest) (hkind : manifest.kind = .goMod) :
    manifest.IsGoMod content := by
  obtain ⟨kind, hname, hat⟩ := isAt_of_parse h
  obtain rfl : kind = .goMod := hat.kind_eq.symm.trans hkind
  rw [parse, hname] at h
  cases h
  refine ⟨hkind, ?_⟩
  rw [dependencies_foldl_addGoStatement]
  exact dependencies_declareAll_congr (a := empty path .goMod) (b := empty "" .goMod) rfl rfl _

namespace IsGoMod

variable {manifest : Manifest} {content : String} (h : manifest.IsGoMod content)
include h

theorem lookup_eq {key : String} (hkey : key ≠ "") :
    manifest.dependencies.lookup key =
      ((goRequirements content).find? fun requirement => lowered requirement.1 = key).map (·.2) := by
  rw [h.dependencies_eq, lookup_declareAll _ _ hkey]
  have hnone : (empty "" .goMod).dependencies.lookup key = none := rfl
  have hkind : (empty "" .goMod).kind = .goMod := rfl
  have hfind : (goRequirements content).find? (fun other => ManifestKind.goMod.key other.1 = key) =
      (goRequirements content).find? (fun other => lowered other.1 = key) := by
    apply find?_congr
    intro other hother
    rw [(isWord_of_mem_goRequirements hother).key_eq]
  rw [hnone, Option.none_or, hkind, hfind]

theorem nodup_dependencies : (manifest.dependencies.map (·.1)).Nodup := by
  rw [h.dependencies_eq]
  exact nodup_declareAll _ _ List.nodup_nil

private theorem mem_dependencies_iff {key version : String} :
    (key, version) ∈ manifest.dependencies ↔ manifest.dependencies.lookup key = some version := by
  rw [List.lookup_eq_some_iff]
  constructor
  · intro hmem
    obtain ⟨before, after, heq⟩ := List.append_of_mem hmem
    refine ⟨before, after, heq, ?_⟩
    intro other hother
    have hnodup := h.nodup_dependencies
    rw [heq, List.map_append, List.map_cons, List.nodup_append] at hnodup
    rw [bne_iff_ne]
    exact (hnodup.2.2 _ (List.mem_map_of_mem hother) _ List.mem_cons_self).symm
  · rintro ⟨before, after, heq, -⟩
    rw [heq]
    exact List.mem_append_right _ List.mem_cons_self

end IsGoMod

/-- Whether a path is the name of a module, or goes on behind it with a slash. -/
def Covers (module path : String) : Prop := ∃ rest, IsPathIn module path rest

private theorem covers_self (path : String) : Covers path path := ⟨"", Or.inl ⟨rfl, rfl⟩⟩

theorem Covers.length_le {module path : String} (h : Covers module path) :
    module.length ≤ path.length := by
  obtain ⟨rest, hrest⟩ := h
  rw [← String.length_toList, ← String.length_toList]
  exact hrest.isPrefix.length_le

private theorem covers_iff_liesIn {module path : String} :
    Covers module path ↔ path = module ∨ liesIn module path = true := by
  have hchars : (module ++ "/").toList = module.toList ++ ['/'] := String.toList_append
  rw [liesIn, startsWith, isSome_stripStart?_iff, ← hchars]
  constructor
  · rintro ⟨rest, ⟨heq, -⟩ | rfl⟩
    · exact Or.inl heq
    · rw [String.toList_append (s := module ++ "/")]
      exact Or.inr (List.prefix_append _ _)
  · rintro (rfl | ⟨rest, hrest⟩)
    · exact covers_self path
    · refine ⟨String.ofList rest, Or.inr ?_⟩
      apply String.toList_inj.mp
      rw [← hrest, String.toList_append (s := module ++ "/"), String.toList_ofList]

/-- A path lies in a module if its first segments are those of the module. -/
theorem covers_iff_segments {module path : String} :
    Covers module path ↔ Path.segments module <+: Path.segments path := by
  constructor
  · rintro ⟨rest, ⟨rfl, -⟩ | rfl⟩
    · exact List.prefix_rfl
    · rw [Path.segments_append]
      exact List.prefix_append _ _
  · rintro ⟨more, hmore⟩
    have hpath := Path.intercalate_segments path
    rw [← hmore] at hpath
    by_cases hnil : more = []
    · rw [hnil, List.append_nil, Path.intercalate_segments] at hpath
      rw [hpath]
      exact covers_self path
    · rw [String.intercalate_append_of_ne_nil (Path.segments_ne_nil module) hnil,
        Path.intercalate_segments] at hpath
      exact ⟨"/".intercalate more, Or.inr hpath.symm⟩

/-- Whether a declaration is that of the longest module that a path is or lies in. -/
structure IsLongest (declarations : List (String × String)) (path : String)
    (found : String × String) : Prop where
  mem : found ∈ declarations
  covers : Covers found.1 path
  longest : ∀ other ∈ declarations, Covers other.1 path → other.1.length ≤ found.1.length

private theorem IsLongest.name_eq {declarations : List (String × String)} {path : String}
    {found found' : String × String} (h : IsLongest declarations path found)
    (h' : IsLongest declarations path found') : found.1 = found'.1 := by
  obtain ⟨rest, hrest⟩ := h.covers
  obtain ⟨rest', hrest'⟩ := h'.covers
  exact hrest.eq_of_length_eq hrest'
    (Nat.le_antisymm (h'.longest _ h.mem h.covers) (h.longest _ h'.mem h'.covers))

private theorem longer_eq_or (a b : String × String) : longer a b = a ∨ longer a b = b := by
  rw [longer]
  split
  · exact Or.inr rfl
  · exact Or.inl rfl

private theorem le_longer (a b : String × String) :
    a.1.utf8ByteSize ≤ (longer a b).1.utf8ByteSize ∧
      b.1.utf8ByteSize ≤ (longer a b).1.utf8ByteSize := by
  rw [longer]
  split <;> omega

private theorem foldl_longer_spec (first : String × String) (rest : List (String × String)) :
    rest.foldl longer first ∈ first :: rest ∧
      ∀ other ∈ first :: rest, other.1.utf8ByteSize ≤ (rest.foldl longer first).1.utf8ByteSize := by
  induction rest generalizing first with
  | nil => simp
  | cons next rest ih =>
    obtain ⟨hmem, hmax⟩ := ih (longer first next)
    obtain ⟨hfirst, hnext⟩ := le_longer first next
    have hboth := hmax _ List.mem_cons_self
    rw [List.foldl_cons]
    constructor
    · rcases List.mem_cons.mp hmem with heq | hrest
      · rcases longer_eq_or first next with hlonger | hlonger <;> rw [heq, hlonger]
        · exact List.mem_cons_self
        · exact List.mem_cons_of_mem _ List.mem_cons_self
      · exact List.mem_cons_of_mem _ (List.mem_cons_of_mem _ hrest)
    · intro other hother
      rcases List.mem_cons.mp hother with rfl | hother
      · exact hfirst.trans hboth
      · rcases List.mem_cons.mp hother with rfl | hother
        · exact hnext.trans hboth
        · exact hmax other (List.mem_cons_of_mem _ hother)

private theorem of_enclosing?_eq_some {manifest : Manifest} {path : String}
    {found : String × String} (h : manifest.enclosing? path = some found) :
    found ∈ manifest.dependencies ∧ liesIn found.1 path = true ∧
      ∀ other ∈ manifest.dependencies, liesIn other.1 path = true →
        other.1.utf8ByteSize ≤ found.1.utf8ByteSize := by
  rw [enclosing?] at h
  split at h
  · cases h
  · rename_i first rest hfilter
    obtain rfl := Option.some.inj h
    obtain ⟨hmem, hmax⟩ := foldl_longer_spec first rest
    rw [← hfilter] at hmem hmax
    obtain ⟨hdeclared, hlies⟩ := List.mem_filter.mp hmem
    exact ⟨hdeclared, hlies, fun other hother hother' =>
      hmax other (List.mem_filter.mpr ⟨hother, hother'⟩)⟩

private theorem enclosing?_eq_none {manifest : Manifest} {path : String}
    (h : manifest.enclosing? path = none) :
    ∀ other ∈ manifest.dependencies, liesIn other.1 path = false := by
  rw [enclosing?] at h
  split at h
  · rename_i hfilter
    intro other hother
    exact Bool.eq_false_of_not_eq_true (List.filter_eq_nil_iff.mp hfilter other hother)
  · cases h

namespace IsGoMod

variable {manifest : Manifest} {content package version : String} (h : manifest.IsGoMod content)
include h

private theorem version?_eq (package : String) :
    manifest.version? package =
      (manifest.dependencies.lookup (ManifestKind.goMod.key package)).or
        ((manifest.enclosing? (ManifestKind.goMod.key package)).map (·.2)) := by
  rw [version?, if_pos h.kind_eq, h.kind_eq]

private theorem exists_isLongest (hversion : manifest.version? package = some version) :
    ∃ module, IsLongest manifest.dependencies (ManifestKind.goMod.key package)
      (module, version) := by
  rw [h.version?_eq, Option.or_eq_some_iff] at hversion
  rcases hversion with hlookup | ⟨hlookup, henclosing⟩
  · exact ⟨_, h.mem_dependencies_iff.mpr hlookup, covers_self _, fun other _ hother =>
      hother.length_le⟩
  · obtain ⟨⟨module, version⟩, hfound, rfl⟩ := Option.map_eq_some_iff.mp henclosing
    obtain ⟨hmem, hin, hmax⟩ := of_enclosing?_eq_some hfound
    obtain ⟨rest, hrest⟩ := covers_iff_liesIn.mpr (Or.inr hin)
    refine ⟨module, hmem, ⟨rest, hrest⟩, ?_⟩
    rintro other hother ⟨rest', hrest'⟩
    rcases covers_iff_liesIn.mp ⟨rest', hrest'⟩ with hwhole | hother'
    · -- A declaration of the whole path would have been found first.
      rw [hwhole, h.mem_dependencies_iff.mp hother] at hlookup
      cases hlookup
    · rw [hrest'.length_le_iff hrest]
      exact hmax other hother hother'

private theorem version?_eq_none_iff :
    manifest.version? package = none ↔
      ∀ declaration ∈ manifest.dependencies,
        ¬ Covers declaration.1 (ManifestKind.goMod.key package) := by
  constructor
  · intro hnone declaration hmem hcovers
    rw [h.version?_eq, Option.or_eq_none_iff, Option.map_eq_none_iff] at hnone
    obtain ⟨hlookup, henclosing⟩ := hnone
    rcases covers_iff_liesIn.mp hcovers with hwhole | hin
    · rw [hwhole, h.mem_dependencies_iff.mp hmem] at hlookup
      cases hlookup
    · rw [enclosing?_eq_none henclosing _ hmem] at hin
      cases hin
  · intro hnone
    rw [Option.eq_none_iff_forall_ne_some]
    intro version hversion
    obtain ⟨module, hlongest⟩ := h.exists_isLongest hversion
    exact hnone _ hlongest.mem hlongest.covers

/-- The version of a package is that of the longest declared module that its name is or lies in. -/
theorem version?_eq_some_iff :
    manifest.version? package = some version ↔
      ∃ module, IsLongest manifest.dependencies (ManifestKind.goMod.key package)
        (module, version) := by
  refine ⟨h.exists_isLongest, ?_⟩
  rintro ⟨module, hlongest⟩
  cases hversion : manifest.version? package with
  | none => exact absurd hlongest.covers (h.version?_eq_none_iff.mp hversion _ hlongest.mem)
  | some known =>
    obtain ⟨module', hlongest'⟩ := h.exists_isLongest hversion
    obtain rfl : module' = module := hlongest'.name_eq hlongest
    rw [← h.mem_dependencies_iff.mp hlongest.mem, ← h.mem_dependencies_iff.mp hlongest'.mem]

end IsGoMod

/-- Whether a requirement is the one that a path belongs to: its module, in lower case, is the path
or the path lies in it, and in no longer required module; and no requirement of the module stands
before it. -/
structure IsLongestRequired (requirements : List (String × String)) (path : String)
    (found : String × String) : Prop where
  covers : Covers (lowered found.1) path
  longest : ∀ other ∈ requirements, Covers (lowered other.1) path →
    (lowered other.1).length ≤ (lowered found.1).length
  first : requirements.find? (fun other => lowered other.1 = lowered found.1) = some found

namespace IsGoMod

variable {manifest : Manifest} {content key package version : String}
  (h : manifest.IsGoMod content)
include h

theorem ne_empty_of_mem (hmem : (key, version) ∈ manifest.dependencies) : key ≠ "" := by
  rw [h.dependencies_eq] at hmem
  exact ne_empty_of_mem_declareAll (fun _ hnil => absurd hnil List.not_mem_nil) _ hmem

private theorem mem_dependencies_iff_find? :
    (key, version) ∈ manifest.dependencies ↔
      ∃ module, lowered module = key ∧
        (goRequirements content).find? (fun other => lowered other.1 = key) =
          some (module, version) := by
  constructor
  · intro hmem
    have hlookup := h.lookup_eq (h.ne_empty_of_mem hmem)
    rw [h.mem_dependencies_iff.mp hmem] at hlookup
    obtain ⟨⟨module, version⟩, hfind, rfl⟩ := Option.map_eq_some_iff.mp hlookup.symm
    exact ⟨module, by simpa using List.find?_some hfind, hfind⟩
  · rintro ⟨module, rfl, hfind⟩
    have hword := isWord_of_mem_goRequirements (List.mem_of_find?_eq_some hfind)
    rw [h.mem_dependencies_iff, h.lookup_eq (lowered_ne_empty hword.1), hfind]
    rfl

private theorem exists_mem_dependencies {requirement : String × String}
    (hmem : requirement ∈ goRequirements content) :
    ∃ version, (lowered requirement.1, version) ∈ manifest.dependencies := by
  have hsome : ((goRequirements content).find? fun other =>
      lowered other.1 = lowered requirement.1).isSome = true :=
    List.find?_isSome.mpr ⟨requirement, hmem, decide_eq_true rfl⟩
  obtain ⟨⟨module, version⟩, hfind⟩ := Option.isSome_iff_exists.mp hsome
  have hname : lowered module = lowered requirement.1 := by simpa using List.find?_some hfind
  exact ⟨version, h.mem_dependencies_iff_find?.mpr ⟨module, hname, hfind⟩⟩

private theorem isLongest_iff {path : String} :
    (∃ key, IsLongest manifest.dependencies path (key, version)) ↔
      ∃ module, IsLongestRequired (goRequirements content) path (module, version) := by
  constructor
  · rintro ⟨key, hmem, hcovers, hlongest⟩
    obtain ⟨module, rfl, hfind⟩ := h.mem_dependencies_iff_find?.mp hmem
    refine ⟨module, hcovers, ?_, hfind⟩
    intro other hother hcovers'
    obtain ⟨version', hmem'⟩ := h.exists_mem_dependencies hother
    exact hlongest (lowered other.1, version') hmem' hcovers'
  · rintro ⟨module, hcovers, hlongest, hfirst⟩
    refine ⟨lowered module, h.mem_dependencies_iff_find?.mpr ⟨module, rfl, hfirst⟩, hcovers, ?_⟩
    rintro ⟨key, version'⟩ hmem hcovers'
    obtain ⟨module', rfl, hfind⟩ := h.mem_dependencies_iff_find?.mp hmem
    exact hlongest (module', version') (List.mem_of_find?_eq_some hfind) hcovers'

/-- The version of a package is that of the longest required module that its name is or lies in. -/
theorem version?_eq_some_iff_required :
    manifest.version? package = some version ↔
      ∃ module, IsLongestRequired (goRequirements content) (ManifestKind.goMod.key package)
        (module, version) := by
  rw [h.version?_eq_some_iff, h.isLongest_iff]

theorem version?_eq_none_iff_required :
    manifest.version? package = none ↔
      ∀ requirement ∈ goRequirements content,
        ¬ Covers (lowered requirement.1) (ManifestKind.goMod.key package) := by
  rw [h.version?_eq_none_iff]
  constructor
  · intro hnone requirement hmem
    obtain ⟨version, hdeclared⟩ := h.exists_mem_dependencies hmem
    exact hnone (lowered requirement.1, version) hdeclared
  · rintro hnone ⟨key, version⟩ hmem
    obtain ⟨module, rfl, hfind⟩ := h.mem_dependencies_iff_find?.mp hmem
    exact hnone (module, version) (List.mem_of_find?_eq_some hfind)

end IsGoMod

end Manifest

end RepoGraph
