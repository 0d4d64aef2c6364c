import RepoGraph.Proofs.Import.Tokens
import RepoGraph.Proofs.Index.Build
import RepoGraph.Proofs.Source.Scan

/-!
# Ids in normal form

A module that a reference resolves to has a declared name or a path in normal form, unless the
reference is written with a step in it that its language does not know.
-/

namespace RepoGraph

open Text

namespace Importer

variable {importer : Importer} {token id : String}

def namesBehindDots (token : String) : List (List Char) :=
  splitOn '.' (token.toList.dropWhile (· == '.'))

private theorem segments_dottedPath (hslash : '/' ∉ token.toList) :
    Path.segments (dottedPath token) = (namesBehindDots token).map String.ofList := by
  have hbehind : '/' ∉ token.toList.dropWhile (· == '.') := fun hmem =>
    hslash ((List.dropWhile_suffix _).mem hmem)
  rw [Path.segments, pieces, dottedPath, String.toList_ofList, splitOn_map_replace hbehind,
    namesBehindDots]

private theorem isNormal_dottedPath (hslash : '/' ∉ token.toList)
    (hnames : namesBehindDots token = [[]] ∨ [] ∉ namesBehindDots token) :
    Path.IsNormal (dottedPath token) := by
  rcases hnames with hnone | hnames
  · rw [← Path.intercalate_segments (dottedPath token), segments_dottedPath hslash, hnone]
    exact Path.isNormal_root
  · apply Path.isNormal_of_isName
    intro segment hsegment
    rw [segments_dottedPath hslash] at hsegment
    obtain ⟨name, hname, rfl⟩ := List.mem_map.mp hsegment
    apply Path.isName_ofList
    · rintro rfl
      exact hnames hname
    · exact (of_mem_splitOn hname).1

private theorem isNormal_stem {file : String} (hhere : Path.stem file ≠ ".")
    (hup : Path.stem file ≠ "..") :
    Path.IsNormal (Path.stem file) := by
  by_cases hne : Path.stem file = ""
  · rw [hne]
    exact Path.isNormal_root
  · have hname := Path.slash_notMem_of_mem_segments (Path.fileName_mem_segments file)
    have hslash : '/' ∉ (Path.stem file).toList := fun hmem =>
      hname ((Path.stem_isPrefix file).mem hmem)
    apply Path.isNormal_of_isName
    intro segment hsegment
    rw [Path.segments_of_slash_notMem hslash, List.mem_singleton] at hsegment
    rw [hsegment]
    exact ⟨hne, hhere, hup⟩

private theorem isNormal_childDir {file : String} (hfile : Path.IsNormal file)
    (hhere : Path.stem file ≠ ".") (hup : Path.stem file ≠ "..") :
    Path.IsNormal (childDir file) := by
  rw [childDir]
  split
  · exact hfile.parent
  · exact hfile.parent.join (isNormal_stem hhere hup)

private theorem isName_of_mem_rustNames (hdot : '.' ∉ token.toList) {name : String}
    (hname : name ∈ rustNames token) : Path.IsName name := by
  obtain ⟨piece, hpiece, rfl⟩ := List.mem_map.mp hname
  obtain ⟨hpiece, hne⟩ := List.mem_filter.mp hpiece
  apply Path.isName_ofList
  · rintro rfl
    cases hne
  · intro hmem
    exact hdot ((isInfix_of_mem_splitOnText hpiece).mem hmem)

private theorem slash_notMem_of_mem_rustNames (hslash : '/' ∉ token.toList) {name : String}
    (hname : name ∈ rustNames token) : '/' ∉ name.toList := by
  obtain ⟨piece, hpiece, rfl⟩ := List.mem_map.mp hname
  rw [String.toList_ofList]
  intro hmem
  exact hslash ((isInfix_of_mem_splitOnText (List.mem_filter.mp hpiece).1).mem hmem)

private theorem isNormal_rustPath (hdot : '.' ∉ token.toList) (hslash : '/' ∉ token.toList)
    {names : List String} (hnames : names ⊆ rustNames token) :
    Path.IsNormal ("/".intercalate names) := by
  by_cases hne : names = []
  · rw [hne]
    exact Path.isNormal_root
  · have hsegments : Path.segments ("/".intercalate names) = names := by
      apply Path.segments_intercalate ?_ hne
      intro name hname
      exact slash_notMem_of_mem_rustNames hslash (hnames hname)
    apply Path.isNormal_of_isName
    rw [hsegments]
    intro name hname
    exact isName_of_mem_rustNames hdot (hnames hname)

private theorem isNormal_packageDir {dir : String}
    (hmodules : ∀ module ∈ importer.index.goModules, Path.IsNormal module.dir)
    (htoken : Path.IsNormal token) (h : importer.index.goPackageDir? token = some dir) :
    Path.IsNormal dir := by
  obtain ⟨module, hmodule, rfl | ⟨rest, heq, rfl⟩⟩ := RepoIndex.of_goPackageDir? h
  · exact hmodules module hmodule
  · -- What the import path has behind the module's path are segments of the import path.
    apply (hmodules module hmodule).join
    have hne : token ≠ "" := by
      rintro rfl
      have hchars := congrArg String.toList heq
      simp at hchars
    apply Path.isNormal_of_isName
    intro segment hsegment
    apply htoken.isName hne
    rw [congrArg Path.segments heq, Path.segments_append]
    exact List.mem_append_right _ hsegment

/-- How a reference must be written to lead to a path in normal form: a relative one of Python
leaves out no name, an import path of Go is in normal form, and a Rust path without dots and slashes
stands in a file that is called like no step of a path. -/
structure WritesNormally (importer : Importer) (token : String) : Prop where
  dotted : importer.language = .python → importer.isRelative token = true →
    '/' ∉ token.toList ∧ (namesBehindDots token = [[]] ∨ [] ∉ namesBehindDots token)
  bareGo : importer.language = .go → importer.isRelative token = false → Path.IsNormal token
  crateName : importer.language = .rust → '.' ∉ token.toList ∧ '/' ∉ token.toList ∧
    Path.stem importer.file ≠ "." ∧ Path.stem importer.file ≠ ".."

private theorem Origin.isNormal (horigin : importer.Origin token id)
    (hindexed : ∀ path, importer.index.Indexes path → Path.IsNormal path)
    (hmodules : ∀ module ∈ importer.index.goModules, Path.IsNormal module.dir)
    (hfile : Path.IsNormal importer.file) (hwritten : importer.WritesNormally token) :
    importer.index.hasNamespace id = true ∨ Path.IsNormal id := by
  cases horigin with
  | indexed found => exact Or.inr (hindexed id found)
  | declared names found => exact Or.inl found
  | relative relative part meant => exact Or.inr (Path.isNormal_of_normalize? meant)
  | dotted python relative climbed =>
    obtain ⟨hslash, hnames⟩ := hwritten.dotted python relative
    have hdir := climb?_induction (P := Path.IsNormal) (fun _ h => h.parent) hfile.parent climbed
    exact Or.inr (hdir.join (isNormal_dottedPath hslash hnames))
  | goPackage go bare found =>
    have htoken := hwritten.bareGo go bare
    right
    split
    · exact htoken
    · exact isNormal_packageDir hmodules htoken found
  | crateModule rust names inCrate start =>
    obtain ⟨hdot, hslash, hhere, hup⟩ := hwritten.crateName rust
    obtain ⟨hdir, hrest⟩ := pathStart?_induction start (P := Path.IsNormal)
      (fun _ h => h.parent) hfile.parent (isNormal_childDir hfile hhere hup)
    exact Or.inr (hdir.join (isNormal_rustPath hdot hslash hrest))

end Importer

/-- Whether a reference in a file has no step in it that its language does not know: no empty name
behind the leading dots of a relative Python reference, none but names in an import path of Go, and
no Rust file that is called like a step. -/
def SourceFile.WritesPlainly (file : SourceFile) (reference : Reference) : Prop :=
  match file.language with
  | .python => reference.written.toList.head? = some '.' →
    Importer.namesBehindDots reference.written = [[]] ∨
      [] ∉ Importer.namesBehindDots reference.written
  | .go => reference.written.toList.head? ≠ some '.' → Path.IsNormal reference.written
  | .rust => Path.stem file.path ≠ "." ∧ Path.stem file.path ≠ ".."
  | _ => True

/-- The tokens that detectors report hold no other steps. -/
theorem SourceFile.writesNormally {file : SourceFile} {reference : Reference}
    (href : reference ∈ file.references) (hplain : file.WritesPlainly reference)
    (index : RepoIndex) :
    Importer.WritesNormally ⟨index, reference.fromFile, file.language, reference.kind⟩
      reference.written := by
  obtain ⟨hfrom, inImport, code, hread⟩ := SourceFile.of_mem_references href
  have hwritten {c : Char} (hc : c ∉ reference.token.toList) : c ∉ reference.written.toList := by
    rw [Reference.written, String.toList_ofList]
    exact fun hmem => hc ((trim_isInfix _).mem hmem)
  constructor
  · intro hlang hrelative
    dsimp only at hlang
    rw [hlang] at hread
    rw [WritesPlainly, hlang] at hplain
    rw [Importer.isRelative, hlang, decide_eq_true_eq] at hrelative
    exact ⟨hwritten (Import.Python.slash_notMem_of_mem_readLine hread), hplain hrelative⟩
  · intro hlang hbare
    dsimp only at hlang
    rw [WritesPlainly, hlang] at hplain
    rw [Importer.isRelative, hlang, decide_eq_false_iff_not] at hbare
    exact hplain hbare
  · intro hlang
    dsimp only at hlang
    rw [hlang] at hread
    rw [WritesPlainly, hlang] at hplain
    have hnot (c : Char) (hstart : isNameStart c = false) (hword : isWordChar c = false)
        (hcolon : c ≠ ':') : c ∉ reference.written.toList :=
      hwritten (Import.Rust.notMem_of_mem_readLine hread hstart hword hcolon)
    rw [hfrom]
    exact ⟨hnot '.' (by decide) (by decide) (by decide),
      hnot '/' (by decide) (by decide) (by decide), hplain⟩

/-- In a repository whose files and manifests lie at paths in normal form, what a plainly written
reference resolves to has a declared name or a path in normal form. -/
theorem RepoIndex.normal_of_resolve? {files : List SourceFile} {manifests : List Manifest}
    (hdistinct : (files.map (·.path)).Nodup) (hpaths : ∀ file ∈ files, Path.IsNormal file.path)
    (hdirs : ∀ manifest ∈ manifests, Path.IsNormal manifest.dir) {file : SourceFile}
    (hfile : file ∈ files) {reference : Reference} (href : reference ∈ file.references)
    (hplain : file.WritesPlainly reference) {id : String} {language : Language}
    (h : (build files manifests).resolve? reference = some (.internal id language)) :
    (build files manifests).hasNamespace id = true ∨
      Path.IsNormal id ∧ ∀ segment ∈ Path.segments id, Path.IsName segment := by
  obtain ⟨importing, himporting, horigin, hne⟩ := origin_of_resolve? h
  have hfrom := (SourceFile.of_mem_references href).1
  have hlang : importing = file.language := by
    rw [importingLanguage?, hfrom, language?_build hdistinct hfile, Option.some_or] at himporting
    exact (Option.some.inj himporting).symm
  rw [hlang] at horigin
  have hindexed (path : String) (hpath : (build files manifests).Indexes path) :
      Path.IsNormal path := by
    obtain ⟨found, hfound, rfl⟩ := indexes_build hpath
    exact hpaths found hfound
  have hmodules (module : GoModule) (hmodule : module ∈ (build files manifests).goModules) :
      Path.IsNormal module.dir := by
    obtain ⟨manifest, hmanifest, hdir⟩ := goModules_build hmodule
    rw [← hdir]
    exact hdirs manifest hmanifest
  have hfromNormal : Path.IsNormal reference.fromFile := by
    rw [hfrom]
    exact hpaths file hfile
  rcases horigin.isNormal hindexed hmodules hfromNormal (file.writesNormally href hplain _) with
    hdeclared | hnormal
  · exact Or.inl hdeclared
  · exact Or.inr ⟨hnormal, fun segment => hnormal.isName hne⟩

section LoneModule

def loneModule (content : String) : SourceFile := ⟨"a.py", .python, content⟩

def ofModule (token : String) : Reference := ⟨"a.py", token, .imports, 1⟩

private theorem contains_loneModule (content path : String) :
    (RepoIndex.build [loneModule content] []).contains path = ("a.py" == path) := by
  rw [RepoIndex.contains, RepoIndex.files_build]
  simp [loneModule, Std.HashMap.contains_insert]

private theorem internal_loneModule (content path : String) :
    Importer.internal ⟨.build [loneModule content] [], "a.py", .python, .imports⟩ path =
      .internal path .python := by
  have hnone : (RepoIndex.build [loneModule content] []).namespaces = {} := rfl
  have hlanguage : (RepoIndex.build [loneModule content] []).language? path =
      if "a.py" = path then some .python else none := by
    rw [RepoIndex.language?, RepoIndex.files_build]
    simp [loneModule, Std.HashMap.getElem?_insert]
  rw [Importer.internal, hlanguage, RepoIndex.namespaceLanguage?, hnone]
  split <;> simp

private theorem resolve?_loneModule {content token path : String}
    (hwritten : (ofModule token).written = token) (hhead : token.toList.head? = some '.')
    (hdots : (token.toList.takeWhile (· == '.')).length = 1)
    (hpath : Importer.dottedPath token = path)
    (hfile : (RepoIndex.candidates path Language.python.sourceSuffixes ["__init__"]).find?
      ("a.py" == ·) = none)
    (hne : path.isEmpty = false) (helse : path ≠ "a.py") :
    (RepoIndex.build [loneModule content] []).resolve? (ofModule token) =
      some (.internal path .python) := by
  have hnofile : Importer.pythonFile? (.build [loneModule content] []) path = none := by
    rw [Importer.pythonFile?, RepoIndex.probe?, ← hfile]
    exact congrArg (List.find? · _) (funext (contains_loneModule content))
  have htarget : Importer.target? ⟨.build [loneModule content] [], "a.py", .python, .imports⟩
      token = some (.internal path .python) := by
    have hclimb : Importer.climb? 0 (Path.parent "a.py") = some "" := by decide
    have hjoin : Path.join "" (Importer.dottedPath token) = path := by
      rw [hpath]
      rfl
    rw [Importer.dottedPath] at hjoin
    change Importer.python? _ token = _
    rw [Importer.python?, if_pos hhead, Importer.relativePython?, hdots]
    simp only [Importer.dir, Nat.sub_self, hclimb, Option.bind_eq_bind, Option.bind_some, hjoin,
      hnofile, hne, internal_loneModule]
    rfl
  have hlanguage : (RepoIndex.build [loneModule content] []).importingLanguage? "a.py" =
      some .python := by
    have hmem : loneModule content ∈ [loneModule content] := List.mem_cons_self
    have hfile : (RepoIndex.build [loneModule content] []).language? "a.py" = some .python :=
      RepoIndex.language?_build (by simp) hmem
    rw [RepoIndex.importingLanguage?, hfile, Option.some_or]
  rw [RepoIndex.resolve?_eq_some_iff, hwritten]
  refine ⟨?_, .python, hlanguage, htarget, ?_⟩
  · have htoken : token ≠ "" := by
      rintro rfl
      cases hhead
    simpa using htoken
  · simp [RepoIndex.isElsewhere, ofModule, hne, helse]

/-- Where every name is written, the id is in normal form. -/
theorem normal_of_resolve?_package :
    (loneModule "from .x.y import z").WritesPlainly (ofModule ".x.y") ∧
      ofModule ".x.y" ∈ (loneModule "from .x.y import z").references ∧
      (RepoIndex.build [loneModule "from .x.y import z"] []).resolve? (ofModule ".x.y") =
        some (.internal "x/y" .python) ∧
      Path.IsNormal "x/y" := by
  have hplain : (loneModule "from .x.y import z").WritesPlainly (ofModule ".x.y") :=
    fun _ => Or.inr (by decide)
  have href : ofModule ".x.y" ∈ (loneModule "from .x.y import z").references := by decide
  have hresolve : (RepoIndex.build [loneModule "from .x.y import z"] []).resolve?
      (ofModule ".x.y") = some (.internal "x/y" .python) :=
    resolve?_loneModule (by decide) (by decide) (by decide) (by decide) (by decide) (by decide)
      (by decide)
  have hpaths : ∀ file ∈ [loneModule "from .x.y import z"], Path.IsNormal file.path := by
    intro file hfile
    rw [List.mem_singleton.mp hfile]
    exact (by decide : Path.normalize? "a.py" = some "a.py")
  refine ⟨hplain, href, hresolve, ?_⟩
  rcases RepoIndex.normal_of_resolve? (by simp) hpaths (by simp)
    List.mem_cons_self href hplain hresolve with hdeclared | ⟨hnormal, -⟩
  · have hnone : (RepoIndex.build [loneModule "from .x.y import z"] []).namespaces = {} := rfl
    rw [RepoIndex.hasNamespace, hnone, Std.HashMap.contains_empty] at hdeclared
    cases hdeclared
  · exact hnormal

/-- A name left out between two dots leaves an empty segment in the id. -/
theorem resolve?_not_normal :
    (([loneModule "from .x..y import z"]).map (·.path)).Nodup ∧
      Path.IsNormal (loneModule "from .x..y import z").path ∧
      ofModule ".x..y" ∈ (loneModule "from .x..y import z").references ∧
      (RepoIndex.build [loneModule "from .x..y import z"] []).resolve? (ofModule ".x..y") =
        some (.internal "x//y" .python) ∧
      (RepoIndex.build [loneModule "from .x..y import z"] []).hasNamespace "x//y" = false ∧
      ¬ Path.IsNormal "x//y" := by
  have hnone : (RepoIndex.build [loneModule "from .x..y import z"] []).namespaces = {} := rfl
  refine ⟨List.pairwise_singleton _ _, ?_, by decide, ?_, ?_, ?_⟩
  · exact (by decide : Path.normalize? "a.py" = some "a.py")
  · exact resolve?_loneModule (by decide) (by decide) (by decide) (by decide) (by decide)
      (by decide) (by decide)
  · rw [RepoIndex.hasNamespace, hnone, Std.HashMap.contains_empty]
  · exact (by decide : Path.normalize? "x//y" ≠ some "x//y")

end LoneModule

end RepoGraph
