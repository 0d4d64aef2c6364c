import RepoGraph.Proofs.Resolve.NormalIds
import RepoGraph.Proofs.Resolve.PackageRoots
import RepoGraph.Proofs.Resolve.RelativePaths
import RepoGraph.Proofs.Resolve.Searches

/-!
# Python modules

An absolute Python name is looked for in some directories, by parts of its length and less, and in
some forms of a file. The three searches lie inside each other, so that the file that is found comes
first in the lexicographic order of their places. A name without a file leaves the repository.
-/

namespace RepoGraph

open Text

def pythonForms (path : String) : List String :=
  [path, path ++ ".py", path ++ ".pyi", path ++ "/__init__.py", path ++ "/__init__.pyi"]

/-- A place in the search for a module: the number of the directory, the length of the initial part
of the name and the number of the form. -/
structure ModulePlace where
  root : Nat
  length : Nat
  form : Nat

namespace ModulePlace

structure Holds (place : ModulePlace) (dir : String) (names : List String) (path : String) :
    Prop where
  positive : 1 ≤ place.length
  within : place.length ≤ names.length
  written : ∃ root, (Importer.pythonRoots dir)[place.root]? = some root ∧
    (pythonForms (Path.join root ("/".intercalate (names.take place.length))))[place.form]? =
      some path

/-- Whether a place is searched before another one: the nearer directory first, then the longer
part, then the earlier form. -/
def Precedes (a b : ModulePlace) : Prop :=
  a.root < b.root ∨ a.root = b.root ∧
    (b.length < a.length ∨ a.length = b.length ∧ a.form < b.form)

end ModulePlace

namespace RepoIndex

variable {index : RepoIndex} {dir path : String} {names : List String}

def HoldsModule (index : RepoIndex) (dir : String) (names : List String) : Prop :=
  ∃ (place : ModulePlace) (path : String), place.Holds dir names path ∧ index.contains path = true

/-- Whether a path is that of an indexed file at the first place that holds one. -/
def IsFirstModule (index : RepoIndex) (dir : String) (names : List String) (path : String) : Prop :=
  index.contains path = true ∧ ∃ place : ModulePlace, place.Holds dir names path ∧
    ∀ earlier : ModulePlace, earlier.Precedes place → ∀ other, earlier.Holds dir names other →
      index.contains other = false

end RepoIndex

namespace Importer

variable {index : RepoIndex} {importer : Importer} {token path found : String}

private theorem pythonFile?_eq (index : RepoIndex) (hpath : path ≠ "") :
    pythonFile? index path = (pythonForms path).find? index.contains := by
  have hinit {name file : String} (hname : name ≠ "") (hfile : "/" ++ name = file) :
      Path.join path name = path ++ file := by
    rw [Path.join_of_ne_root hpath hname, String.append_assoc, hfile]
  have hforms : RepoIndex.candidates path Language.python.sourceSuffixes ["__init__"] =
      pythonForms path := by
    rw [RepoIndex.candidates, if_neg (by simpa using hpath)]
    change [path, path ++ ".py", path ++ ".pyi", Path.join path ("__init__" ++ ".py"),
      Path.join path ("__init__" ++ ".pyi")] = pythonForms path
    rw [hinit (by decide) (by decide : _ = "/__init__.py"),
      hinit (by decide) (by decide : _ = "/__init__.pyi"), pythonForms]
  rw [pythonFile?, RepoIndex.probe?, hforms]

private theorem pythonFile?_eq_none_iff (hpath : path ≠ "") : pythonFile? index path = none ↔
    ∀ (form : Nat) (other : String), (pythonForms path)[form]? = some other →
      index.contains other = false := by
  rw [pythonFile?_eq index hpath, List.find?_eq_none]
  constructor
  · intro h form other hother
    simpa using h other (List.mem_of_getElem? hother)
  · intro h other hmem
    obtain ⟨form, hform⟩ := List.mem_iff_getElem?.mp hmem
    simpa using h form other hform

private theorem of_pythonFile?_eq_some (hpath : path ≠ "")
    (h : pythonFile? index path = some found) :
    index.contains found = true ∧ ∃ form : Nat, (pythonForms path)[form]? = some found ∧
      ∀ earlier < form, ∀ other, (pythonForms path)[earlier]? = some other →
        index.contains other = false := by
  rw [pythonFile?_eq index hpath, List.find?_eq_some_iff_getElem] at h
  obtain ⟨hcontains, form, hform, hfound, hfirst⟩ := h
  refine ⟨hcontains, form, List.getElem?_eq_some_iff.mpr ⟨hform, hfound⟩, ?_⟩
  intro earlier hearlier other hother
  obtain ⟨_, rfl⟩ := List.getElem?_eq_some_iff.mp hother
  simpa using hfirst earlier hearlier

private theorem ne_empty_of_absolutePython? (h : importer.absolutePython? token = some path) :
    path ≠ "" := by
  obtain ⟨root, -, hroot⟩ := List.exists_of_findSome?_eq_some h
  obtain ⟨part, -, hfile⟩ := List.exists_of_findSome?_eq_some hroot
  exact RepoIndex.ne_empty_of_probe? (by decide) hfile

private theorem join_part_ne_empty {names : List String} {first : String} (root : String)
    {length : Nat} (hfirst : names.head? = some first) (hne : first ≠ "") (hlength : 1 ≤ length) :
    Path.join root ("/".intercalate (names.take length)) ≠ "" := by
  apply RepoIndex.join_ne_empty
  obtain ⟨rest, rfl⟩ := List.head?_eq_some_iff.mp hfirst
  obtain ⟨shorter, rfl⟩ := Nat.exists_eq_add_of_le' hlength
  rw [List.take_succ_cons]
  cases rest.take shorter with
  | nil => rwa [String.intercalate_singleton]
  | cons next others => simp [String.intercalate_cons_cons, hne]

private theorem absolutePython?_eq_none_iff {first : String}
    (hfirst : (pieces '.' token).head? = some first) (hne : first ≠ "") :
    importer.absolutePython? token = none ↔
      ¬ importer.index.HoldsModule importer.dir (pieces '.' token) := by
  rw [absolutePython?, List.findSome?_eq_none_iff]
  simp only [findSome?_initialParts_eq_none_iff]
  constructor
  · rintro h ⟨place, path, ⟨hpositive, hwithin, root, hroot, hform⟩, hcontains⟩
    have hnone := h root (List.mem_of_getElem? hroot) _ (List.take_prefix place.length _)
      (by rw [List.length_take]; omega)
    rw [pythonFile?_eq_none_iff (join_part_ne_empty root hfirst hne hpositive)] at hnone
    rw [hnone _ _ hform] at hcontains
    cases hcontains
  · intro h root hroot part hinitial hlength
    obtain ⟨number, hnumber⟩ := List.mem_iff_getElem?.mp hroot
    rw [List.prefix_iff_eq_take.mp hinitial,
      pythonFile?_eq_none_iff (join_part_ne_empty root hfirst hne hlength)]
    intro form other hother
    rw [← Bool.not_eq_true]
    intro hcontains
    exact h ⟨⟨number, part.length, form⟩, other,
      ⟨hlength, hinitial.length_le, root, hnumber, hother⟩, hcontains⟩

/-- What the nested searches find is at the first place that holds an indexed file. -/
theorem isFirstModule_of_absolutePython? {first : String}
    (hfirst : (pieces '.' token).head? = some first) (hne : first ≠ "")
    (h : importer.absolutePython? token = some path) :
    importer.index.IsFirstModule importer.dir (pieces '.' token) path := by
  obtain ⟨number, root, hnumber, hroot, hnearer⟩ := findSome?_eq_some_iff_getElem?.mp h
  obtain ⟨part, hinitial, hlength, hfile, hlonger⟩ := findSome?_initialParts_eq_some_iff.mp hroot
  have htake : (pieces '.' token).take part.length = part :=
    (List.prefix_iff_eq_take.mp hinitial).symm
  have hpath : Path.join root ("/".intercalate part) ≠ "" :=
    htake ▸ join_part_ne_empty root hfirst hne hlength
  obtain ⟨hcontains, form, hform, hforms⟩ := of_pythonFile?_eq_some hpath hfile
  refine ⟨hcontains, ⟨number, part.length, form⟩, ?_, ?_⟩
  · exact ⟨hlength, hinitial.length_le, root, hnumber, by rw [htake]; exact hform⟩
  · rintro ⟨number', length', form'⟩ hbefore other ⟨hpositive, hwithin, root', hroot', hother⟩
    have hpart : (pieces '.' token).take length' <+: pieces '.' token := List.take_prefix _ _
    have hcount : ((pieces '.' token).take length').length = length' :=
      List.length_take_of_le hwithin
    have hmiss (hnone : pythonFile? importer.index
        (Path.join root' ("/".intercalate ((pieces '.' token).take length'))) = none) :
        importer.index.contains other = false :=
      (pythonFile?_eq_none_iff (join_part_ne_empty root' hfirst hne hpositive)).mp hnone form' other
        hother
    rcases hbefore with hlt | ⟨hroots, hlt | ⟨hlengths, hlt⟩⟩
    · have hnone := findSome?_initialParts_eq_none_iff.mp (hnearer number' hlt root' hroot')
      exact hmiss (hnone _ hpart (by rwa [hcount]))
    · obtain rfl : number' = number := hroots
      obtain rfl := Option.some.inj (hnumber.symm.trans hroot')
      exact hmiss (hlonger _ hpart (by rwa [hcount]))
    · obtain rfl : number' = number := hroots
      obtain rfl : length' = part.length := hlengths
      obtain rfl := Option.some.inj (hnumber.symm.trans hroot')
      exact hforms form' hlt other (htake ▸ hother)

private theorem head?_pieces (token : String) :
    (pieces '.' token).head? = some (beforeDot token) := by
  rw [pieces, List.head?_map, head?_splitOn, Option.map_some, beforeDot]

private theorem beforeDot_ne_empty {c : Char} (hhead : token.toList.head? = some c)
    (hdot : c ≠ '.') :
    beforeDot token ≠ "" := by
  obtain ⟨rest, hchars⟩ := List.head?_eq_some_iff.mp hhead
  rw [beforeDot, hchars, List.takeWhile_cons_of_pos (by simpa using hdot)]
  simp

private theorem external?_python {kind : ReferenceKind} {file : String} {c : Char}
    (hhead : token.toList.head? = some c) (hblank : isBlank c = false) (hdot : c ≠ '.') :
    ∃ package, external? ⟨index, file, .python, kind⟩ token = some (.external
      (if pythonModules.contains (beforeDot token) then .pythonStdlib else .pypi) package
        .python) := by
  have hroot : (Ecosystem.ofReference .python token).packageRoot token ≠ "" :=
    Ecosystem.packageRoot_ne_empty (Ecosystem.rootRule_ofReference .python token) rfl (by decide)
      (by decide) hhead hblank hdot
  exact ⟨_, external?_eq_some hroot⟩

end Importer

namespace RepoIndex

open Importer

variable {index : RepoIndex} {reference : Reference}

/-- An absolute Python name denotes the indexed file that comes first among its places. It leaves
the repository exactly if no place holds an indexed file, for the standard library if its first part
is listed there and for the registry otherwise. -/
theorem resolve?_of_absolutePython
    (himporting : index.importingLanguage? reference.fromFile = some .python)
    (hwritten : reference.written ≠ "")
    (habsolute : reference.written.toList.head? ≠ some '.') :
    (index.HoldsModule (Path.parent reference.fromFile) (pieces '.' reference.written) →
      ∃ path, index.IsFirstModule (Path.parent reference.fromFile)
          (pieces '.' reference.written) path ∧ index.Denotes reference path) ∧
    ((∃ ecosystem package language,
        index.resolve? reference = some (.external ecosystem package language)) ↔
      ¬ index.HoldsModule (Path.parent reference.fromFile) (pieces '.' reference.written)) ∧
    ∀ ecosystem package language,
      index.resolve? reference = some (.external ecosystem package language) →
        ∃ first, (pieces '.' reference.written).head? = some first ∧
          ecosystem = if pythonModules.contains first then .pythonStdlib else .pypi := by
  obtain ⟨c, hhead⟩ := reference.exists_head?_written hwritten
  have hdot : c ≠ '.' := fun hdot => habsolute (hdot ▸ hhead)
  have hfirst := head?_pieces reference.written
  have hne := beforeDot_ne_empty hhead hdot
  have hempty : reference.written.isEmpty = false := by simpa using hwritten
  have htarget : Importer.target? ⟨index, reference.fromFile, .python, reference.kind⟩
      reference.written = python? ⟨index, reference.fromFile, .python, reference.kind⟩
        reference.written := rfl
  rw [python?, if_neg habsolute] at htarget
  cases hsearch : absolutePython? ⟨index, reference.fromFile, .python, reference.kind⟩
      reference.written with
  | some path =>
    have hmodule := isFirstModule_of_absolutePython? hfirst hne hsearch
    obtain ⟨hcontains, place, hplace, -⟩ := id hmodule
    rw [hsearch] at htarget
    have hdenotes : index.Denotes reference path :=
      denotes_of_target? hempty himporting (ne_empty_of_absolutePython? hsearch) htarget
    refine ⟨fun _ => ⟨path, hmodule, hdenotes⟩, ⟨?_, ?_⟩, ?_⟩
    · rintro ⟨ecosystem, package, language, hout⟩
      exact absurd hout hdenotes.ne_external
    · exact fun hnone => absurd ⟨place, path, hplace, hcontains⟩ hnone
    · intro ecosystem package language hout
      exact absurd hout hdenotes.ne_external
  | none =>
    have hnone := (absolutePython?_eq_none_iff hfirst hne).mp hsearch
    obtain ⟨package, hout⟩ := external?_python hhead (reference.isBlank_written hhead) hdot
    rw [hsearch] at htarget
    have hresolved := resolve?_eq_some_iff.mpr
      ⟨hempty, .python, himporting, htarget.trans hout, rfl⟩
    refine ⟨fun hmodule => absurd hmodule hnone,
      ⟨fun _ => hnone, fun _ => ⟨_, _, _, hresolved⟩⟩, ?_⟩
    · intro ecosystem package language hother
      have hsame := Option.some.inj (hresolved.symm.trans hother)
      exact ⟨_, hfirst, (Target.external.inj hsame).1.symm⟩

def tools : RepoIndex := ({} : RepoIndex).addFile "pkg/util.py" .python

def toHelper : Reference := ⟨"pkg/cli.py", "util.helper", .imports, 1⟩

private theorem contains_tools (path : String) : tools.contains path = ("pkg/util.py" == path) := by
  rw [tools, contains_addFile, contains, Std.HashMap.contains_empty, Bool.or_false]

/-- The module lies beside the file. -/
theorem resolve?_of_absolutePython_tools :
    toHelper.written ≠ "" ∧ toHelper.written.toList.head? ≠ some '.' ∧
      tools.HoldsModule "pkg" ["util", "helper"] ∧
      ∃ language, tools.resolve? toHelper = some (.internal "pkg/util.py" language) := by
  have himporting : tools.importingLanguage? toHelper.fromFile = some .python := by
    rw [importingLanguage?, tools, language?_addFile, language?, Std.HashMap.getElem?_empty]
    decide
  have hwritten : toHelper.written ≠ "" := by decide
  have habsolute : toHelper.written.toList.head? ≠ some '.' := by decide
  have hdir : Path.parent toHelper.fromFile = "pkg" := by decide
  have hroots : pythonRoots "pkg" = ["pkg", "", "src"] := by
    have hparent : Path.parent "pkg" = "" := by decide
    rw [pythonRoots, Path.ancestors_of_ne_root (by decide), hparent, Path.ancestors_root]
    decide
  have hholds :
      tools.HoldsModule (Path.parent toHelper.fromFile) (pieces '.' toHelper.written) := by
    refine ⟨⟨0, 1, 1⟩, "pkg/util.py", ⟨by decide, by decide, "pkg", ?_, by decide⟩, ?_⟩
    · rw [hdir, hroots]
      rfl
    · rw [contains_tools]
      decide
  obtain ⟨path, ⟨hcontains, -⟩, hdenotes⟩ :=
    (resolve?_of_absolutePython himporting hwritten habsolute).1 hholds
  rw [contains_tools, beq_iff_eq] at hcontains
  subst hcontains
  rw [Denotes, if_neg (by decide)] at hdenotes
  exact ⟨hwritten, habsolute, hholds, hdenotes⟩

/-- A blank name leads nowhere, and one with a dot behind a blank is relative, although neither
starts with a dot and no file is indexed. -/
theorem blanks_around_name_are_dropped :
    (∀ path, ({} : RepoIndex).contains path = false) ∧
      (ofModule "").token.toList.head? ≠ some '.' ∧
      ({} : RepoIndex).resolve? (ofModule "") = none ∧
      (ofModule " .x").token.toList.head? ≠ some '.' ∧
      ({} : RepoIndex).resolve? (ofModule " .x") = some (.internal "x" .python) := by
  have hcontains (path : String) : ({} : RepoIndex).contains path = false := by
    simp [contains]
  refine ⟨hcontains, by decide, ?_, by decide, ?_⟩
  · rw [resolve?_eq_bind, if_pos (by decide)]
  · have hwritten : (ofModule " .x").written = ".x" := by decide
    have hinternal : Importer.internal ⟨{}, "a.py", .python, .imports⟩ "x" =
        .internal "x" .python := by
      simp [Importer.internal, language?, namespaceLanguage?]
    have hnofile : pythonFile? {} "x" = none := by
      rw [pythonFile?_eq_none_iff (by decide)]
      exact fun _ other _ => hcontains other
    have htarget : python? ⟨{}, "a.py", .python, .imports⟩ ".x" = some (.internal "x" .python) := by
      have hdots : (".x".toList.takeWhile (· == '.')).length = 1 := by decide
      have hclimb : climb? 0 (Path.parent "a.py") = some "" := by decide
      have hpath : Path.join "" (String.ofList
          ((".x".toList.dropWhile (· == '.')).map fun c => if c == '.' then '/' else c)) = "x" := by
        decide
      have hne : "x".isEmpty = false := by decide
      rw [python?, if_pos (by decide), relativePython?, hdots]
      simp only [Importer.dir, Nat.sub_self, hclimb, Option.bind_eq_bind, Option.bind_some, hpath,
        hnofile, hne, hinternal]
      rfl
    rw [resolve?_eq_some_iff, hwritten]
    exact ⟨by decide, .python, (importingLanguage?_empty _).trans (by decide), htarget, by decide⟩

end RepoIndex

end RepoGraph
