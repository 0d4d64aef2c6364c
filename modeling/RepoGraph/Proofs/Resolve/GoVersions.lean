import RepoGraph.Proofs.Index.NearestManifest
import RepoGraph.Proofs.Manifest.GoRequirements
import RepoGraph.Proofs.Resolve.PackageRoots

/-!
# Versions of imported Go packages

An import from outside collapses to its first three segments, and only these are looked up in the
`go.mod` above the file. So an import has the version of the longest required module that it lies in,
among those of three segments or fewer. A module of more segments, such as the later versions of
`github.com/owner/repository`, is not found.
-/

namespace RepoGraph

open Text

namespace Text

def trimmedEnd (s : String) : String := String.ofList (cutBlanks s.toList)

end Text

namespace Path

private theorem slash_notMem_modify {names : List String} (h : ∀ name ∈ names, '/' ∉ name.toList)
    (i : Nat) : ∀ name ∈ names.modify i trimmedEnd, '/' ∉ name.toList := by
  induction names generalizing i with
  | nil => simp
  | cons first names ih =>
    obtain ⟨hfirst, hnames⟩ := List.forall_mem_cons.mp h
    cases i with
    | zero =>
      refine List.forall_mem_cons.mpr ⟨?_, hnames⟩
      rw [trimmedEnd, String.toList_ofList]
      exact fun hmem => hfirst ((cutBlanks_isPrefix _).subset hmem)
    | succ i => exact List.forall_mem_cons.mpr ⟨hfirst, ih hnames i⟩

private theorem trim_take_segments {path : String} (h : trim path.toList = path.toList) :
    trim ("/".intercalate ((segments path).take 3)).toList =
      ("/".intercalate (((segments path).take 3).modify 2 trimmedEnd)).toList := by
  have hpath := intercalate_segments path
  match segments path, hpath with
  | [], hpath | [_], hpath | [_, _], hpath =>
    -- The whole path is kept, and it is trimmed.
    subst hpath
    exact h
  | first :: second :: third :: rest, hpath =>
    -- Only the third segment can end in blanks.
    let front := ("/".intercalate [first, second]).toList ++ ['/']
    have hcut : ∀ last more, ("/".intercalate (first :: second :: last :: more)).toList =
        front ++ ("/".intercalate (last :: more)).toList := by
      intro last more
      have happend := String.intercalate_append_of_ne_nil (s := "/") (l := [first, second])
        (m := last :: more) (List.cons_ne_nil _ _) (List.cons_ne_nil _ _)
      rw [List.cons_append, List.cons_append, List.nil_append] at happend
      rw [happend, String.toList_append, String.toList_append]
      rfl
    have hfirst : ∀ c ∈ front.head?, isBlank c = false := by
      intro c hc
      apply head?_trim (s := path.toList)
      rw [h, ← hpath, hcut, List.head?_append, hc, Option.some_or]
    have hlast : ∀ c ∈ front.getLast?, isBlank c = false := by
      intro c hc
      rw [List.getLast?_concat] at hc
      obtain rfl := Option.some.inj hc
      decide
    have hnone : front ≠ [] := List.append_ne_nil_of_right_ne_nil _ (List.cons_ne_nil _ _)
    have htake : (first :: second :: third :: rest).take 3 = [first, second, third] := rfl
    have hmodify : [first, second, third].modify 2 trimmedEnd =
        [first, second, trimmedEnd third] := rfl
    rw [htake, hmodify, hcut, hcut, trim_append hnone hfirst hlast, String.intercalate_singleton,
      String.intercalate_singleton, trimmedEnd, String.toList_ofList]

end Path

/-- The form in which an import path is compared with the modules of a `go.mod`: in lower case, and
without blanks at the end of its third segment. -/
def comparedPath (imported : String) : String :=
  lowered ("/".intercalate ((Path.segments imported).modify 2 trimmedEnd))

private theorem packageRoot_go {imported : String} (h : trim imported.toList = imported.toList)
    (hhost : startsAtHost imported = true) :
    Ecosystem.go.packageRoot imported = "/".intercalate ((Path.segments imported).take 3) := by
  apply String.toList_inj.mp
  have hrule : Ecosystem.go.rootRule = .hostedModule := rfl
  rw [startsAtHost] at hhost
  rw [Ecosystem.packageRoot, h, hrule, RootRule.collapse, if_pos hhost, RootRule.firstSegments,
    String.toList_ofList, String.toList_intercalate, Path.segments, pieces, ← List.map_take,
    List.map_map]
  simp [joinWith]

private theorem segments_comparedPath (imported : String) :
    Path.segments (comparedPath imported) =
      ((Path.segments imported).modify 2 trimmedEnd).map lowered := by
  rw [comparedPath, Path.segments_lowered, Path.segments_intercalate]
  · exact Path.slash_notMem_modify (fun _ => Path.slash_notMem_of_mem_segments) 2
  · rw [← List.length_pos_iff, List.length_modify, List.length_pos_iff]
    exact Path.segments_ne_nil imported

private theorem segments_key_packageRoot {imported : String}
    (h : trim imported.toList = imported.toList) (hhost : startsAtHost imported = true) :
    Path.segments (ManifestKind.goMod.key (Ecosystem.go.packageRoot imported)) =
      (Path.segments (comparedPath imported)).take 3 := by
  have hkey : ManifestKind.goMod.key (Ecosystem.go.packageRoot imported) =
      lowered ("/".intercalate (((Path.segments imported).take 3).modify 2 trimmedEnd)) := by
    rw [ManifestKind.key, packageRoot_go h hhost, Path.trim_take_segments h, lowered]
  rw [hkey, Path.segments_lowered, Path.segments_intercalate, segments_comparedPath,
    ← List.take_modify, List.map_take]
  · refine Path.slash_notMem_modify ?_ 2
    exact fun _ hname => Path.slash_notMem_of_mem_segments (List.mem_of_mem_take hname)
  · rw [← List.length_pos_iff, List.length_modify, List.length_take]
    have hpos := List.length_pos_iff.mpr (Path.segments_ne_nil imported)
    omega

namespace Manifest

def isShort (module : String) : Bool := (Path.segments module).length ≤ 3

private theorem covers_packageRoot_iff {module imported : String}
    (h : trim imported.toList = imported.toList) (hhost : startsAtHost imported = true) :
    Covers (lowered module) (ManifestKind.goMod.key (Ecosystem.go.packageRoot imported)) ↔
      Covers (lowered module) (comparedPath imported) ∧ isShort module = true := by
  rw [covers_iff_segments, segments_key_packageRoot h hhost, List.prefix_take_iff,
    ← covers_iff_segments, Path.segments_lowered, List.length_map, isShort, decide_eq_true_iff]

private theorem isShort_congr {module other : String} (h : lowered module = lowered other) :
    isShort module = isShort other := by
  have hlength := congrArg (fun path => (Path.segments path).length) h
  simp only [Path.segments_lowered, List.length_map] at hlength
  rw [isShort, isShort, hlength]

/-- The requirements of modules whose packages can be found. -/
def shortRequirements (content : String) : List (String × String) :=
  (goRequirements content).filter fun requirement => isShort requirement.1

/-- The package of an import belongs to the longest requirement that the import itself belongs to
among the short ones. -/
theorem isLongestRequired_packageRoot_iff {content imported : String} {found : String × String}
    (h : trim imported.toList = imported.toList) (hhost : startsAtHost imported = true) :
    IsLongestRequired (goRequirements content)
        (ManifestKind.goMod.key (Ecosystem.go.packageRoot imported)) found ↔
      IsLongestRequired (shortRequirements content) (comparedPath imported) found := by
  have hfind (hshort : isShort found.1 = true) :
      (shortRequirements content).find? (fun other => lowered other.1 = lowered found.1) =
        (goRequirements content).find? (fun other => lowered other.1 = lowered found.1) := by
    rw [shortRequirements, List.find?_filter]
    apply find?_congr
    intro other _
    by_cases heq : lowered other.1 = lowered found.1
    · simp [heq, isShort_congr heq, hshort]
    · simp [heq]
  constructor
  · rintro ⟨hcovers, hlongest, hfirst⟩
    obtain ⟨hcovers, hshort⟩ := (covers_packageRoot_iff h hhost).mp hcovers
    refine ⟨hcovers, ?_, (hfind hshort).trans hfirst⟩
    intro other hother hcovers'
    obtain ⟨hmem, hshort'⟩ := List.mem_filter.mp hother
    exact hlongest other hmem ((covers_packageRoot_iff h hhost).mpr ⟨hcovers', hshort'⟩)
  · rintro ⟨hcovers, hlongest, hfirst⟩
    have hshort := (List.mem_filter.mp (List.mem_of_find?_eq_some hfirst)).2
    refine ⟨(covers_packageRoot_iff h hhost).mpr ⟨hcovers, hshort⟩, ?_,
      (hfind hshort).symm.trans hfirst⟩
    intro other hother hcovers'
    obtain ⟨hcovers', hshort'⟩ := (covers_packageRoot_iff h hhost).mp hcovers'
    exact hlongest other (List.mem_filter.mpr ⟨hother, hshort'⟩) hcovers'

end Manifest

namespace RepoIndex

open Manifest

variable {index : RepoIndex} {reference : Reference} {package : String} {language : Language}

private theorem of_resolve?_go (himporting : index.importingLanguage? reference.fromFile = some .go)
    (hresolve : index.resolve? reference = some (.external .go package language)) :
    startsAtHost reference.written = true ∧
      package = Ecosystem.go.packageRoot reference.written := by
  obtain ⟨-, importing, himporting', htarget, -⟩ := resolve?_eq_some_iff.mp hresolve
  obtain rfl : importing = .go := Option.some.inj (himporting'.symm.trans himporting)
  have hexternal := Importer.external?_of_go? htarget
  have hecosystem : Ecosystem.ofReference .go reference.written =
      if startsAtHost reference.written then .go else .goStdlib := rfl
  rw [Importer.external?] at hexternal
  dsimp only at hexternal
  rw [hecosystem, Option.ite_none_left_eq_some, Option.some.injEq,
    Target.external.injEq] at hexternal
  obtain ⟨-, hgo, hpackage, -⟩ := hexternal
  have hhost : startsAtHost reference.written = true := by
    by_contra hno
    rw [if_neg hno] at hgo
    cases hgo
  rw [if_pos hhost] at hpackage
  exact ⟨hhost, hpackage.symm⟩

/-- An import of a Go file has a version exactly if it lies in a required module of at most three
segments, and then that of the longest one. -/
theorem declaredVersion?_goImport (additions : List Addition) {goMod : Manifest}
    {path content : String} (hparse : Manifest.parse path content = .ok goMod)
    (hkind : goMod.kind = .goMod) (hmem : goMod ∈ addedManifests additions)
    (reference : Reference) (habove : Path.Encloses goMod.dir reference.fromFile)
    (honly : ∀ other ∈ addedManifests additions, other.kind = .goMod →
      Path.Encloses other.dir reference.fromFile → other = goMod)
    (himporting : (ofAdditions additions).importingLanguage? reference.fromFile = some .go)
    {package : String} {language : Language}
    (hresolve : (ofAdditions additions).resolve? reference =
      some (.external .go package language)) :
    (((ofAdditions additions).declaredVersion? reference.fromFile .go package).isSome = true ↔
      ∃ requirement ∈ shortRequirements content,
        Covers (lowered requirement.1) (comparedPath reference.written)) ∧
    ∀ version, (ofAdditions additions).declaredVersion? reference.fromFile .go package =
        some version ↔
      ∃ module, IsLongestRequired (shortRequirements content) (comparedPath reference.written)
        (module, version) := by
  obtain ⟨hhost, rfl⟩ := of_resolve?_go himporting hresolve
  have htrim : trim reference.written.toList = reference.written.toList := by
    rw [reference.trim_written, trim_trim]
  have hgoMod := isGoMod_of_parse hparse hkind
  have hgo : goMod.kind.ecosystem = .go := by rw [hkind]; rfl
  have hkinds : ∀ kind : ManifestKind, kind.ecosystem = .go → kind = .goMod := by
    rintro (_ | _ | _ | _ | _ | _ | _) <;> decide
  rw [declaredVersion?_of_only hmem hgo habove
    fun other hother hother' => honly other hother (hkinds other.kind hother')]
  constructor
  · rw [Option.isSome_iff_ne_none, ne_eq, hgoMod.version?_eq_none_iff_required]
    simp only [covers_packageRoot_iff htrim hhost, shortRequirements, List.mem_filter]
    push Not
    simp only [and_assoc, and_comm]
  · intro version
    rw [hgoMod.version?_eq_some_iff_required]
    simp only [isLongestRequired_packageRoot_iff htrim hhost]

def rootGoMod (content : String) : Manifest :=
  (goStatements false (lines content.toList)).foldl addGoStatement (.empty "go.mod" .goMod)

def onlyGoMod (content : String) : List Addition := [.manifest (rootGoMod content)]

def importOf (imported : String) : Reference := ⟨"main.go", imported, .imports, 1⟩

private theorem parse_rootGoMod (content : String) :
    Manifest.parse "go.mod" content = .ok (rootGoMod content) := by
  have hname : ManifestKind.ofFileName? (Path.fileName "go.mod") = some .goMod := by decide
  rw [Manifest.parse, hname]
  rfl

private theorem isAt_rootGoMod (content : String) : (rootGoMod content).IsAt "go.mod" .goMod :=
  (isAt_empty "go.mod" .goMod).foldl_addGoStatement _

private theorem encloses_rootGoMod (content file : String) :
    Path.Encloses (rootGoMod content).dir file := by
  have hroot : Path.parent "go.mod" = "" := by decide
  rw [(isAt_rootGoMod content).dir_eq, hroot]
  exact Or.inl rfl

private theorem eq_rootGoMod_of_mem {content : String} {other : Manifest}
    (h : other ∈ addedManifests (onlyGoMod content)) : other = rootGoMod content :=
  List.mem_singleton.mp h

private theorem declaredVersion?_onlyGoMod (content file package : String) :
    (ofAdditions (onlyGoMod content)).declaredVersion? file .go package =
      (rootGoMod content).version? package := by
  have hgo : (rootGoMod content).kind.ecosystem = .go := by
    rw [(isAt_rootGoMod content).kind_eq]
    rfl
  exact declaredVersion?_of_only (List.mem_singleton.mpr rfl) hgo (encloses_rootGoMod content file)
    fun _ hother _ _ => eq_rootGoMod_of_mem hother

private theorem importingLanguage?_onlyGoMod (content : String) :
    (ofAdditions (onlyGoMod content)).importingLanguage? "main.go" = some .go := by
  have hfiles : (ofAdditions (onlyGoMod content)).files = {} := files_addManifest _ _
  have hpath : Language.ofPath? "main.go" = some .go := by decide
  rw [importingLanguage?, language?, hfiles, Std.HashMap.getElem?_empty, Option.none_or, hpath]

private theorem resolve?_importOf {content imported : String}
    (hwritten : (importOf imported).written = imported)
    (hdot : imported.toList.head? ≠ some '.')
    (hmodule : (ofAdditions (onlyGoMod content)).goPackageDir? imported = none)
    (hhost : startsAtHost imported = true) (hpackage : Ecosystem.go.packageRoot imported ≠ "") :
    (ofAdditions (onlyGoMod content)).resolve? (importOf imported) =
      some (.external .go (Ecosystem.go.packageRoot imported) .go) := by
  have hne : (importOf imported).written.isEmpty = false := by
    rw [hwritten, ← Bool.not_eq_true, String.isEmpty_iff]
    rintro rfl
    exact absurd hhost (by decide)
  have himporting : (ofAdditions (onlyGoMod content)).importingLanguage?
      (importOf imported).fromFile = some .go := importingLanguage?_onlyGoMod content
  have hecosystem : Ecosystem.ofReference .go imported = .go := if_pos hhost
  have hexternal :
      Importer.go? ⟨ofAdditions (onlyGoMod content), "main.go", .go, .imports⟩ imported =
        some (.external .go (Ecosystem.go.packageRoot imported) .go) := by
    rw [Importer.go?, if_neg hdot]
    dsimp only
    rw [hmodule, Importer.external?]
    dsimp only
    rw [hecosystem, if_neg (by simpa using hpackage)]
  rw [resolve?_of_importing hne himporting, hwritten]
  exact congrArg (Option.filter (isElsewhere "main.go")) hexternal

/-- Whether an import in a file of a repository does not have the version of the longest required
module that it lies in. -/
def MissesLongest (content imported : String) (requirement : String × String) : Prop :=
  IsLongest (goRequirements content) imported requirement ∧
    ∃ package, (ofAdditions (onlyGoMod content)).resolve? (importOf imported) =
        some (.external .go package .go) ∧
      (ofAdditions (onlyGoMod content)).declaredVersion? "main.go" .go package ≠
        some requirement.2

private theorem missesLongest_of {content imported : String} {requirement : String × String}
    (hmem : requirement ∈ goRequirements content)
    (hcovers : Path.segments requirement.1 <+: Path.segments imported)
    (hlongest : ∀ other ∈ goRequirements content,
      Path.segments other.1 <+: Path.segments imported → other.1.length ≤ requirement.1.length)
    (hwritten : (importOf imported).written = imported) (hdot : imported.toList.head? ≠ some '.')
    (hmodule : (ofAdditions (onlyGoMod content)).goPackageDir? imported = none)
    (hhost : startsAtHost imported = true) (hpackage : Ecosystem.go.packageRoot imported ≠ "")
    (hversion : (rootGoMod content).version? (Ecosystem.go.packageRoot imported) ≠
      some requirement.2) : MissesLongest content imported requirement := by
  refine ⟨⟨hmem, covers_iff_segments.mpr hcovers, ?_⟩, _,
    resolve?_importOf hwritten hdot hmodule hhost hpackage, ?_⟩
  · intro other hother hcovers'
    exact hlongest other hother (covers_iff_segments.mp hcovers')
  · rwa [declaredVersion?_onlyGoMod]

/-- A module of four segments has no version, of two modules that differ in case the first counts,
and so does a module whose name the third segment has but for blanks. -/
theorem missesLongest_long_and_cased_and_blank :
    MissesLongest "require m.io/jackc/pgx/v5 v5.5.0" "m.io/jackc/pgx/v5"
        ("m.io/jackc/pgx/v5", "v5.5.0") ∧
      MissesLongest "require m.io/Lib v1\nrequire m.io/lib v2" "m.io/lib" ("m.io/lib", "v2") ∧
      MissesLongest "require m.io/b v1\nrequire m.io/b/c v2" "m.io/b/c /d" ("m.io/b", "v1") := by
  refine ⟨?_, ?_, ?_⟩ <;>
    exact missesLongest_of (by decide +kernel) (by decide +kernel) (by decide +kernel)
      (by decide +kernel) (by decide +kernel) (by decide +kernel) (by decide +kernel)
      (by decide +kernel) (by decide +kernel)

/-- A package inside a module inside another one, with a deeper module that is not found. -/
theorem declaredVersion?_goImport_nested :
    let content := "require m.io/lib v1\nrequire m.io/lib/sub v2\nrequire m.io/lib/sub/deep v3"
    (ofAdditions (onlyGoMod content)).resolve? (importOf "m.io/lib/sub/deep/x") =
        some (.external .go "m.io/lib/sub" .go) ∧
      (ofAdditions (onlyGoMod content)).declaredVersion? "main.go" .go "m.io/lib/sub" =
        some "v2" := by
  intro content
  have hresolve : (ofAdditions (onlyGoMod content)).resolve? (importOf "m.io/lib/sub/deep/x") =
      some (.external .go "m.io/lib/sub" .go) :=
    resolve?_importOf (by decide +kernel) (by decide +kernel) (by decide +kernel)
      (by decide +kernel) (by decide +kernel)
  refine ⟨hresolve, ?_⟩
  have hversion := declaredVersion?_goImport (onlyGoMod content) (parse_rootGoMod content)
    (isAt_rootGoMod content).kind_eq (List.mem_singleton.mpr rfl) (importOf "m.io/lib/sub/deep/x")
    (encloses_rootGoMod content "main.go") (fun _ hother _ _ => eq_rootGoMod_of_mem hother)
    (importingLanguage?_onlyGoMod content) hresolve
  have hrequirements : shortRequirements content = [("m.io/lib", "v1"), ("m.io/lib/sub", "v2")] := by
    decide +kernel
  have hpath : comparedPath (importOf "m.io/lib/sub/deep/x").written = "m.io/lib/sub/deep/x" := by
    decide +kernel
  refine (hversion.2 "v2").mpr ⟨"m.io/lib/sub", ?_⟩
  rw [hrequirements, hpath]
  have hlengths : ∀ other ∈ [("m.io/lib", "v1"), ("m.io/lib/sub", "v2")],
      (lowered other.1).length ≤ (lowered "m.io/lib/sub").length := by decide +kernel
  exact ⟨covers_iff_segments.mpr (by decide +kernel), fun other hother _ => hlengths other hother,
    by decide +kernel⟩

end RepoIndex

end RepoGraph
