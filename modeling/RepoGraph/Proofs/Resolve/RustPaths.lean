import Mathlib.Data.List.Induction
import RepoGraph.Proofs.Index.Reachable
import RepoGraph.Proofs.Resolve.Searches

/-!
# Spellings of a Rust module path

A path that starts at the module of its file, or at one of the modules around it, is resolved like
the path that goes there from the root of the crate. The files of the modules in between decide it:
the search from the root would go on to shorter paths only behind them.
-/

namespace RepoGraph

open Text

namespace Importer

variable {index : RepoIndex} {root file : String} {names path front back : List String}

/-- A name that can stand in a Rust path and in the path of a file, as every identifier can. -/
structure IsRustName (name : String) : Prop where
  nonempty : name ≠ ""
  noColon : ':' ∉ name.toList
  noSlash : '/' ∉ name.toList

def modulePath (root : String) (names : List String) : String :=
  Path.join root ("/".intercalate names)

def moduleSources (path : String) : List String := [path ++ ".rs", path ++ "/mod.rs"]

private theorem isRustName_crate : IsRustName "crate" := ⟨by decide, by decide, by decide⟩

private theorem isRustName_self : IsRustName "self" := ⟨by decide, by decide, by decide⟩

private theorem isRustName_super : IsRustName "super" := ⟨by decide, by decide, by decide⟩

private theorem notMem_of_isRustName (h : ∀ name ∈ names, IsRustName name) :
    "" ∉ names := fun hmem =>
  (h "" hmem).nonempty rfl

private theorem modulePath_nil (root : String) :
    modulePath root [] = root := Path.join_root_right root

private theorem modulePath_append (root : String) (hfront : "" ∉ front) (hback : "" ∉ back) :
    modulePath root (front ++ back) = modulePath (modulePath root front) back := by
  rw [modulePath, Path.intercalate_append hfront hback, ← Path.join_assoc]
  rfl

private theorem modulePath_concat {name : String} (root : String) (hfront : "" ∉ front)
    (hname : name ≠ "") :
    modulePath root (front ++ [name]) = Path.join (modulePath root front) name := by
  rw [modulePath_append root hfront (by simpa using hname.symm), modulePath,
    String.intercalate_singleton]

private theorem modulePath_ne_root (root : String) (hnames : "" ∉ names) (hne : names ≠ []) :
    modulePath root names ≠ "" := by
  have hpath : "/".intercalate names ≠ "" := Path.intercalate_ne_empty hnames hne
  by_cases hroot : root = ""
  · rwa [hroot, modulePath, Path.join_root_left]
  · rw [modulePath, Path.join_of_ne_root hroot hpath]
    simp [hroot]

private theorem childDir_of_mem_moduleSources {last : String} (hfront : "" ∉ front)
    (hlast : IsRustName last) (hroot : last ∉ ["lib", "main", "mod"])
    (h : file ∈ moduleSources (modulePath root (front ++ [last]))) :
    childDir file = modulePath root (front ++ [last]) := by
  have hpath := modulePath_concat root hfront hlast.nonempty
  have hne : modulePath root (front ++ [last]) ≠ "" :=
    modulePath_ne_root root (by simpa using ⟨hfront, hlast.nonempty⟩) (by simp)
  rw [moduleSources, List.mem_cons, List.mem_singleton] at h
  rcases h with rfl | rfl
  · -- The file has the name of the module.
    have hsource : last ++ ".rs" ≠ "" := by simp
    have hslash : '/' ∉ (last ++ ".rs").toList := by simpa using hlast.noSlash
    have hfile : modulePath root (front ++ [last]) ++ ".rs" =
        Path.join (modulePath root front) (last ++ ".rs") := by
      rw [hpath, Path.join, Path.join]
      split
      · rfl
      · simp [hlast.nonempty, String.append_assoc]
    have hname := Path.fileName_join (modulePath root front) hsource hslash
    have hparent := Path.parent_join (modulePath root front) hsource hslash
    rw [← hfile] at hname hparent
    have hdot : last ++ ".rs" = last ++ "." ++ "rs" := by
      rw [String.append_assoc]
      rfl
    have hstem := Path.stem_of_fileName hlast.nonempty (by decide) (hname.trans hdot)
    have hother : ["lib.rs", "main.rs", "mod.rs"].contains (last ++ ".rs") = false := by
      have hsame (name : String) (heq : last ++ ".rs" = name ++ ".rs") : last = name :=
        (String.append_left_inj ".rs").mp heq
      simp only [List.mem_cons, List.not_mem_nil, or_false, not_or] at hroot
      simpa using ⟨mt (hsame "lib") hroot.1, mt (hsame "main") hroot.2.1,
        mt (hsame "mod") hroot.2.2⟩
    rw [childDir, hname, hother, if_neg Bool.false_ne_true, hparent, hstem, hpath]
  · -- The file lies in the directory of the module.
    have hfile : modulePath root (front ++ [last]) ++ "/mod.rs" =
        Path.join (modulePath root (front ++ [last])) "mod.rs" := by
      rw [Path.join_of_ne_root hne (by decide), String.append_assoc]
      rfl
    rw [hfile, childDir, Path.fileName_join _ (by decide) (by decide), if_pos (by decide),
      Path.parent_join _ (by decide) (by decide)]

private theorem climbSupers?_replicate (hfront : "" ∉ front)
    (hback : ∀ name ∈ back, IsRustName name) (hpath : path.head? ≠ some "super") :
    climbSupers? (modulePath root (front ++ back)) (List.replicate back.length "super" ++ path) =
      some (modulePath root front, path) := by
  -- Each `super` leaves the last module.
  induction back using List.reverseRecOn with
  | nil =>
    rw [List.append_nil, List.length_nil, List.replicate_zero, List.nil_append]
    cases path with
    | nil => rfl
    | cons first more =>
      have hfirst : first ≠ "super" := fun heq => hpath (congrArg some heq)
      rw [climbSupers?, if_neg hfirst]
  | append_singleton back last ih =>
    have hinner (name : String) (hname : name ∈ back) : IsRustName name :=
      hback name (List.mem_append_left _ hname)
    have hlast : IsRustName last := hback last (by simp)
    have hnames : "" ∉ front ++ back := by
      rw [List.mem_append]
      exact not_or.mpr ⟨hfront, notMem_of_isRustName hinner⟩
    have hdir := modulePath_concat root hnames hlast.nonempty
    rw [List.append_assoc] at hdir
    have hne : (modulePath root (front ++ (back ++ [last]))).isEmpty = false := by
      have hall : "" ∉ front ++ (back ++ [last]) := by
        rw [← List.append_assoc, List.mem_append, List.mem_singleton]
        exact not_or.mpr ⟨hnames, Ne.symm hlast.nonempty⟩
      simpa using modulePath_ne_root root hall (by simp)
    rw [List.length_append, List.length_singleton, List.replicate_succ, List.cons_append,
      climbSupers?, if_pos rfl, hne, if_neg Bool.false_ne_true, hdir,
      Path.parent_join _ hlast.nonempty hlast.noSlash]
    exact ih hinner

private theorem isSome_moduleFile? {source path : String} (hpath : path ≠ "")
    (hsource : source ∈ moduleSources path) (h : index.contains source = true) :
    (moduleFile? index path).isSome = true := by
  rw [moduleFile?, List.find?_isSome]
  refine ⟨source, ?_, h⟩
  have hmod : path ++ "/mod.rs" = Path.join path "mod.rs" := by
    rw [Path.join_of_ne_root hpath (by decide), String.append_assoc]
    rfl
  rw [moduleSources, hmod, List.mem_cons, List.mem_singleton] at hsource
  rw [moduleFiles, if_neg (by simpa using hpath)]
  rcases hsource with rfl | rfl
  · exact List.mem_cons_self
  · exact List.mem_append_right _ List.mem_cons_self

/-- Behind the file of a module, a search from further up finds what a search from there finds. -/
theorem moduleId_append (hfront : "" ∉ front) (hback : "" ∉ back)
    (h : front = [] ∨ (moduleFile? index (modulePath root front)).isSome = true) :
    moduleId index (modulePath root front) back = moduleId index root (front ++ back) := by
  have happend {part : List String} (hpart : part <+: back) :
      modulePath root (front ++ part) = modulePath (modulePath root front) part :=
    modulePath_append root hfront fun hmem => hback (hpart.subset hmem)
  have hsearch (dir : String) (names : List String) : moduleId index dir names =
      ((initialParts 0 names).findSome? fun part => moduleFile? index (modulePath dir part)).getD
        (modulePath dir names) := rfl
  rw [hsearch, hsearch]
  cases hfound : (initialParts 0 back).findSome? fun part =>
      moduleFile? index (modulePath (modulePath root front) part) with
  | some found =>
    obtain ⟨part, hpart, -, hfile, hlonger⟩ := findSome?_initialParts_eq_some_iff.mp hfound
    have hall : ((initialParts 0 (front ++ back)).findSome? fun part =>
        moduleFile? index (modulePath root part)) = some found := by
      rw [findSome?_initialParts_eq_some_iff]
      refine ⟨front ++ part, (List.prefix_append_right_inj front).mpr hpart, Nat.zero_le _, ?_, ?_⟩
      · rw [happend hpart]
        exact hfile
      · -- What is longer goes on behind the module, too.
        intro longer hinitial hlt
        rw [List.length_append] at hlt
        obtain ⟨rest, rfl⟩ := List.prefix_of_prefix_length_le (List.prefix_append front back)
          hinitial (by omega)
        have hrest : rest <+: back := (List.prefix_append_right_inj front).mp hinitial
        rw [List.length_append] at hlt
        rw [happend hrest]
        exact hlonger rest hrest (by omega)
    rw [hall, Option.getD_some, Option.getD_some]
  | none =>
    have hnone := findSome?_initialParts_eq_none_iff.mp hfound [] List.nil_prefix (Nat.le_refl 0)
    rw [modulePath_nil] at hnone
    rcases h with rfl | hsome
    · rw [List.nil_append, modulePath_nil] at *
      rw [hfound]
    · rw [hnone] at hsome
      cases hsome

private theorem rustNames_intercalate (h : ∀ name ∈ names, IsRustName name) (hne : names ≠ []) :
    rustNames ("::".intercalate names) = names := by
  have hcolons : "::".toList = [':', ':'] := rfl
  have hfull : ∀ piece ∈ names.map String.toList, (!piece.isEmpty) = true := by
    intro piece hpiece
    obtain ⟨name, hname, rfl⟩ := List.mem_map.mp hpiece
    simpa using (h name hname).nonempty
  rw [rustNames, String.toList_intercalate, hcolons, splitOnText_intercalate,
    List.filter_eq_self.mpr hfull, List.map_map]
  · simp
  · intro piece hpiece
    obtain ⟨name, hname, rfl⟩ := List.mem_map.mp hpiece
    exact (h name hname).noColon
  · simpa using hne

private theorem pathStart?_super (importer : Importer) (more : List String) :
    importer.pathStart? ("super" :: more) =
      (climbSupers? (childDir importer.file) ("super" :: more)).map some := rfl

/-- A path that starts inside the crate means the module at the place where it starts. -/
theorem rust?_of_pathStart? {importer : Importer} {token dir : String}
    (hnames : rustNames token ≠ [])
    (h : importer.pathStart? (rustNames token) = some (some (dir, path))) :
    importer.rust? token = some (importer.internal (moduleId importer.index dir path)) := by
  have heq : ((splitOnText [':', ':'] token.toList).filter (!·.isEmpty)).map String.ofList =
      rustNames token := rfl
  rw [rust?, heq, if_neg (by simpa using hnames), h]

end Importer

namespace RepoIndex

open Importer

variable {index : RepoIndex} {file root : String} {names path : List String}

def HoldsCrate (index : RepoIndex) (dir : String) : Prop :=
  index.contains (Path.join dir "lib.rs") = true ∨ index.contains (Path.join dir "main.rs") = true

/-- Whether a Rust file is that of a module in the nearest crate around it, with the file of every
module in between. -/
structure IsCrateModule (index : RepoIndex) (file root : String) (names : List String) : Prop where
  language : index.language? file = some .rust
  nearest : ∃ nearer above, Path.ancestors (Path.parent file) = nearer ++ root :: above ∧
    index.HoldsCrate root ∧ ∀ dir ∈ nearer, ¬ index.HoldsCrate dir
  nonempty : names ≠ []
  named : ∀ name ∈ names, IsRustName name
  notRoot : ∀ last ∈ names.getLast?, last ∉ ["lib", "main", "mod"]
  source : file ∈ moduleSources (modulePath root names)
  enclosing : ∀ part, part <+: names → part ≠ [] → part ≠ names →
    ∃ source ∈ moduleSources (modulePath root part), index.contains source = true

def moduleTarget? (index : RepoIndex) (file root : String) (names : List String) : Option Target :=
  (some (internal ⟨index, file, .rust, .uses⟩ (moduleId index root names))).filter
    (isElsewhere file)

private theorem holdsCrate_iff {dir : String} :
    holdsCrate index dir = true ↔ index.HoldsCrate dir := by
  rw [holdsCrate, Bool.or_eq_true, HoldsCrate]

private theorem contains_of_language? {path : String} {language : Language}
    (h : index.language? path = some language) : index.contains path = true := by
  rw [contains, Std.HashMap.contains_eq_isSome_getElem?]
  exact Option.isSome_of_eq_some h

namespace IsCrateModule

private theorem crateRoot_eq (h : index.IsCrateModule file root names) :
    crateRoot index file = root := by
  obtain ⟨nearer, above, heq, hroot, hnearer⟩ := h.nearest
  have hfind : (Path.ancestors (Path.parent file)).find? (holdsCrate index) = some root := by
    rw [List.find?_eq_some_iff_append]
    refine ⟨holdsCrate_iff.mpr hroot, nearer, above, heq, ?_⟩
    intro dir hdir
    rw [Bool.not_eq_true', ← Bool.not_eq_true, holdsCrate_iff]
    exact hnearer dir hdir
  rw [crateRoot, hfind, Option.getD_some]

private theorem childDir_eq (h : index.IsCrateModule file root names) :
    childDir file = modulePath root names := by
  have hlast := List.dropLast_concat_getLast h.nonempty
  have hsource := h.source
  rw [← hlast] at hsource ⊢
  apply childDir_of_mem_moduleSources _ (h.named _ (List.getLast_mem h.nonempty))
    (h.notRoot _ (List.getLast?_eq_some_getLast h.nonempty)) hsource
  exact fun hmem => notMem_of_isRustName h.named (List.dropLast_subset _ hmem)

private theorem moduleFile?_of_prefix (h : index.IsCrateModule file root names) {part : List String}
    (hpart : part <+: names) :
    part = [] ∨ (moduleFile? index (modulePath root part)).isSome = true := by
  by_cases hne : part = []
  · exact Or.inl hne
  · right
    have hpath : modulePath root part ≠ "" :=
      modulePath_ne_root root (fun hmem => notMem_of_isRustName h.named (hpart.subset hmem)) hne
    by_cases hself : part = names
    · rw [hself] at hpath ⊢
      exact isSome_moduleFile? hpath h.source (contains_of_language? h.language)
    · obtain ⟨source, hsource, hcontains⟩ := h.enclosing part hpart hne hself
      exact isSome_moduleFile? hpath hsource hcontains

private theorem resolve?_of_pathStart? (h : index.IsCrateModule file root names)
    {front : List String} (hfront : front <+: names) (hpath : "" ∉ path) {reference : Reference}
    (hfile : reference.fromFile = file) (hne : rustNames reference.written ≠ [])
    (hstart : pathStart? ⟨index, file, .rust, reference.kind⟩ (rustNames reference.written) =
      some (some (modulePath root front, path))) :
    index.resolve? reference = index.moduleTarget? file root (front ++ path) := by
  have hwritten : reference.written.isEmpty = false := by
    rw [← Bool.not_eq_true, String.isEmpty_iff]
    intro hempty
    rw [hempty] at hne
    exact hne rfl
  have himporting : index.importingLanguage? reference.fromFile = some .rust := by
    rw [importingLanguage?, hfile, h.language, Option.some_or]
  have htarget : target? ⟨index, file, .rust, reference.kind⟩ reference.written =
      rust? ⟨index, file, .rust, reference.kind⟩ reference.written := rfl
  have hnames : "" ∉ front := fun hmem => notMem_of_isRustName h.named (hfront.subset hmem)
  rw [resolve?_of_importing hwritten himporting, hfile, htarget, rust?_of_pathStart? hne hstart,
    moduleId_append hnames hpath (h.moduleFile?_of_prefix hfront)]
  rfl

private theorem resolve?_crate (h : index.IsCrateModule file root names)
    (hpath : ∀ name ∈ path, IsRustName name) {reference : Reference}
    (hfile : reference.fromFile = file)
    (hwritten : reference.written = "::".intercalate ("crate" :: path)) :
    index.resolve? reference = index.moduleTarget? file root path := by
  have hnames : rustNames reference.written = "crate" :: path := by
    rw [hwritten, rustNames_intercalate (List.forall_mem_cons.mpr ⟨isRustName_crate, hpath⟩)
      (List.cons_ne_nil _ _)]
  have hstart : pathStart? ⟨index, file, .rust, reference.kind⟩ (rustNames reference.written) =
      some (some (modulePath root [], path)) := by
    rw [hnames, modulePath_nil, ← h.crateRoot_eq]
    rfl
  exact h.resolve?_of_pathStart? List.nil_prefix (notMem_of_isRustName hpath) hfile
    (hnames ▸ List.cons_ne_nil _ _) hstart

private theorem resolve?_self (h : index.IsCrateModule file root names)
    (hpath : ∀ name ∈ path, IsRustName name) {reference : Reference}
    (hfile : reference.fromFile = file)
    (hwritten : reference.written = "::".intercalate ("self" :: path)) :
    index.resolve? reference = index.moduleTarget? file root (names ++ path) := by
  have hnames : rustNames reference.written = "self" :: path := by
    rw [hwritten, rustNames_intercalate (List.forall_mem_cons.mpr ⟨isRustName_self, hpath⟩)
      (List.cons_ne_nil _ _)]
  have hstart : pathStart? ⟨index, file, .rust, reference.kind⟩ (rustNames reference.written) =
      some (some (modulePath root names, path)) := by
    rw [hnames, ← h.childDir_eq]
    rfl
  exact h.resolve?_of_pathStart? List.prefix_rfl (notMem_of_isRustName hpath) hfile
    (hnames ▸ List.cons_ne_nil _ _) hstart

private theorem resolve?_supers {inner outer : List String}
    (h : index.IsCrateModule file root (outer ++ inner)) (hne : inner ≠ [])
    (hpath : ∀ name ∈ path, IsRustName name) (hfirst : path.head? ≠ some "super")
    {reference : Reference} (hfile : reference.fromFile = file)
    (hwritten : reference.written =
      "::".intercalate (List.replicate inner.length "super" ++ path)) :
    index.resolve? reference = index.moduleTarget? file root (outer ++ path) := by
  have hall : ∀ name ∈ List.replicate inner.length "super" ++ path, IsRustName name := by
    intro name hname
    rcases List.mem_append.mp hname with hsuper | hname
    · rw [List.eq_of_mem_replicate hsuper]
      exact isRustName_super
    · exact hpath name hname
  obtain ⟨levels, hlevels⟩ := Nat.exists_eq_succ_of_ne_zero (mt List.length_eq_zero_iff.mp hne)
  have hcons : List.replicate inner.length "super" ++ path =
      "super" :: (List.replicate levels "super" ++ path) := by
    rw [hlevels, List.replicate_succ, List.cons_append]
  have hnames : rustNames reference.written = List.replicate inner.length "super" ++ path := by
    rw [hwritten, rustNames_intercalate hall (hcons ▸ List.cons_ne_nil _ _)]
  have houter : "" ∉ outer := fun hmem =>
    notMem_of_isRustName h.named (List.mem_append_left _ hmem)
  have hclimb : climbSupers? (modulePath root (outer ++ inner))
      (List.replicate inner.length "super" ++ path) = some (modulePath root outer, path) :=
    climbSupers?_replicate houter (fun name hname => h.named name (List.mem_append_right _ hname))
      hfirst
  have hstart : pathStart? ⟨index, file, .rust, reference.kind⟩ (rustNames reference.written) =
      some (some (modulePath root outer, path)) := by
    rw [hcons, ← h.childDir_eq] at hclimb
    rw [hnames, hcons, pathStart?_super, hclimb, Option.map_some]
  refine h.resolve?_of_pathStart? (List.prefix_append outer inner) (notMem_of_isRustName hpath)
    hfile ?_ hstart
  rw [hnames, hcons]
  exact List.cons_ne_nil _ _

end IsCrateModule

/-- From the file of a module, a path behind `self` means what it means behind the module's path
from the root of the crate, and one behind `super` written some times what it means behind the path
of the module so many levels up. -/
theorem resolve?_eq_of_isCrateModule (h : index.IsCrateModule file root names)
    (hpath : ∀ name ∈ path, IsRustName name) (hfirst : path.head? ≠ some "super")
    {reference other : Reference} (hfile : reference.fromFile = file)
    (hother : other.fromFile = file) :
    (reference.written = "::".intercalate ("self" :: path) →
      other.written = "::".intercalate ("crate" :: (names ++ path)) →
        index.resolve? reference = index.resolve? other) ∧
    ∀ levels, 1 ≤ levels → levels ≤ names.length →
      reference.written = "::".intercalate (List.replicate levels "super" ++ path) →
      other.written =
        "::".intercalate ("crate" :: (names.take (names.length - levels) ++ path)) →
          index.resolve? reference = index.resolve? other := by
  -- The path from the root, through any of the modules on the way.
  have hcrate {front : List String} (hfront : front ⊆ names)
      (hwritten : other.written = "::".intercalate ("crate" :: (front ++ path))) :
      index.resolve? other = index.moduleTarget? file root (front ++ path) := by
    apply h.resolve?_crate _ hother hwritten
    intro name hname
    rcases List.mem_append.mp hname with hname | hname
    · exact h.named name (hfront hname)
    · exact hpath name hname
  constructor
  · intro hself hwritten
    rw [h.resolve?_self hpath hfile hself, hcrate (List.Subset.refl names) hwritten]
  · intro levels hpositive hle hsupers hwritten
    have hsplit := List.take_append_drop (names.length - levels) names
    have hlength : (names.drop (names.length - levels)).length = levels := by
      rw [List.length_drop]
      omega
    have hinner : names.drop (names.length - levels) ≠ [] := by
      rw [← List.length_pos_iff]
      omega
    rw [hcrate (List.take_subset _ _) hwritten]
    rw [← hsplit] at h
    exact h.resolve?_supers hinner hpath hfirst hfile (by rw [hlength]; exact hsupers)

/-- A crate with a module in a directory of its own and a module inside it. -/
def graphCrate : RepoIndex :=
  ((({} : RepoIndex).addFile "src/lib.rs" .rust).addFile "src/graph/mod.rs" .rust).addFile
    "src/graph/edge.rs" .rust

def inEdge (token : String) : Reference := ⟨"src/graph/edge.rs", token, .uses, 1⟩

private theorem contains_graphCrate (path : String) : graphCrate.contains path =
    ("src/graph/edge.rs" == path || ("src/graph/mod.rs" == path || "src/lib.rs" == path)) := by
  rw [graphCrate, contains_addFile, contains_addFile, contains_addFile, contains,
    Std.HashMap.contains_empty, Bool.or_false]

private theorem language?_graphCrate (path : String) : graphCrate.language? path =
    if "src/graph/edge.rs" == path then some .rust
    else if "src/graph/mod.rs" == path then some .rust
    else if "src/lib.rs" == path then some .rust else none := by
  rw [graphCrate, language?_addFile, language?_addFile, language?_addFile, language?,
    Std.HashMap.getElem?_empty]

private theorem isCrateModule_graphCrate :
    graphCrate.IsCrateModule "src/graph/edge.rs" "src" ["graph", "edge"] where
  language := language?_graphCrate _
  nearest := by
    have hparent : Path.parent "src/graph" = "src" := by decide
    have hroot : Path.parent "src" = "" := by decide
    refine ⟨["src/graph"], [""], ?_, ?_, ?_⟩
    · change Path.ancestors "src/graph" = _
      rw [Path.ancestors_of_ne_root (by decide), hparent, Path.ancestors_of_ne_root (by decide),
        hroot, Path.ancestors_root]
      rfl
    · rw [HoldsCrate, contains_graphCrate]
      decide
    · intro dir hdir
      rw [List.mem_singleton.mp hdir, HoldsCrate, contains_graphCrate, contains_graphCrate]
      decide
  nonempty := by decide
  named name hname := by
    rcases List.mem_cons.mp hname with rfl | hname
    · exact ⟨by decide, by decide, by decide⟩
    · rw [List.mem_singleton.mp hname]
      exact ⟨by decide, by decide, by decide⟩
  notRoot := by decide
  source := by decide
  enclosing part hinitial hne hother := by
    -- Only the outer module is in between.
    have honly : ∀ part ∈ initialParts 0 ["graph", "edge"], part ≠ [] →
        part ≠ ["graph", "edge"] → part = ["graph"] := by decide
    obtain rfl := honly part (mem_initialParts_iff.mpr ⟨hinitial, Nat.zero_le _⟩) hne hother
    refine ⟨"src/graph/mod.rs", by decide, ?_⟩
    rw [contains_graphCrate]
    decide

/-- The module around the one of the file, as its parent and from the root. -/
theorem resolve?_eq_of_isCrateModule_graphCrate :
    graphCrate.IsCrateModule "src/graph/edge.rs" "src" ["graph", "edge"] ∧
      graphCrate.resolve? (inEdge "super::Node") =
        graphCrate.resolve? (inEdge "crate::graph::Node") ∧
      graphCrate.resolve? (inEdge "super::Node") = some (.internal "src/graph/mod.rs" .rust) := by
  have hname : ∀ name ∈ ["Node"], IsRustName name := by
    intro name hname
    rw [List.mem_singleton.mp hname]
    exact ⟨by decide, by decide, by decide⟩
  have hsame : graphCrate.resolve? (inEdge "super::Node") =
      graphCrate.resolve? (inEdge "crate::graph::Node") :=
    (resolve?_eq_of_isCrateModule isCrateModule_graphCrate hname (by decide) rfl rfl).2 1
      (by decide) (by decide) (by decide) (by decide)
  refine ⟨isCrateModule_graphCrate, hsame, ?_⟩
  have hpath : ∀ name ∈ ["graph", "Node"], IsRustName name := by
    apply List.forall_mem_cons.mpr ⟨⟨by decide, by decide, by decide⟩, hname⟩
  have hmodule : moduleId graphCrate "src" ["graph", "Node"] = "src/graph/mod.rs" := by
    simp only [moduleId, moduleFile?, funext contains_graphCrate]
    decide
  rw [hsame, isCrateModule_graphCrate.resolve?_crate hpath rfl (by decide), moduleTarget?, hmodule,
    internal, language?_graphCrate]
  decide

end RepoIndex

end RepoGraph
