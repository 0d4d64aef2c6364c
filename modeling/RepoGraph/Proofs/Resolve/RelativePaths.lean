import RepoGraph.Proofs.Index.Reachable

/-!
# Relative references

A relative reference is resolved by the path that it means. However that path is written, and from
wherever it is seen, the same files are tried for it, so that it denotes one module; a reference
that stands in this module itself is dropped.
-/

namespace RepoGraph

open Text

/-- The path that a relative reference means, seen from the directory of its file, or from the root
if it starts with a slash. -/
def Reference.meantPath? (reference : Reference) : Option String :=
  Path.normalize? (if reference.written.toList.head? = some '/' then reference.written
    else Path.join (Path.parent reference.fromFile) reference.written)

namespace RepoIndex

variable {index : RepoIndex} {reference other : Reference} {importing importing' : Language}

/-- The file that a path means in a language; Go imports directories. -/
def fileAt? (index : RepoIndex) (importing : Language) (path : String) : Option String :=
  match importing.family with
  | .javaScript => Importer.scriptFile? index path
  | .php => index.probe? path Language.php.sourceSuffixes []
  | .ruby => index.probe? path Language.ruby.sourceSuffixes []
  | _ => none

/-- The module at a path: the file that the path means, or else the path itself if it is not the
root. -/
def moduleAt? (index : RepoIndex) (importing : Language) (path : String) : Option String :=
  (index.fileAt? importing path).or (if path.isEmpty then none else some path)

/-- A reference by a relative path, from a script, a Go file, a PHP include or a Ruby file. The path
of a script has no query or fragment behind it. -/
structure IsPathReference (index : RepoIndex) (reference : Reference) (importing : Language) :
    Prop where
  language : index.importingLanguage? reference.fromFile = some importing
  byPath : importing.family ∈ [.javaScript, .go, .php, .ruby]
  relative : Importer.isRelative ⟨index, reference.fromFile, importing, reference.kind⟩
    reference.written = true
  noQuery : importing.family = .javaScript →
    '?' ∉ reference.written.toList ∧ '#' ∉ reference.written.toList

/-- Whether a reference denotes a module: it resolves to the module, or is dropped because it stands
in its file. -/
def Denotes (index : RepoIndex) (reference : Reference) (id : String) : Prop :=
  if reference.fromFile = id then index.resolve? reference = none
  else ∃ language, index.resolve? reference = some (.internal id language)

private theorem fileAt?_of_family_eq (h : importing.family = importing'.family) :
    index.fileAt? importing = index.fileAt? importing' := by
  funext path
  rw [fileAt?, h, fileAt?]

private theorem moduleAt?_of_family_eq (h : importing.family = importing'.family) :
    index.moduleAt? importing = index.moduleAt? importing' := by
  funext path
  rw [moduleAt?, fileAt?_of_family_eq h, moduleAt?]

theorem withoutQuery_of_notMem {token : String} (hquery : '?' ∉ token.toList)
    (hfragment : '#' ∉ token.toList) : Importer.withoutQuery token = token := by
  have hall : ∀ c ∈ token.toList, (c != '?' && c != '#') = true := by
    intro c hc
    rw [Bool.and_eq_true, bne_iff_ne, bne_iff_ne]
    constructor
    · rintro rfl
      exact hquery hc
    · rintro rfl
      exact hfragment hc
  rw [Importer.withoutQuery, List.takeWhile_eq_self_iff.mpr hall, String.ofList_toList]

private theorem IsPathReference.withoutQuery_eq (h : index.IsPathReference reference importing)
    (hscript : importing.family = .javaScript) :
    Importer.withoutQuery reference.written = reference.written :=
  withoutQuery_of_notMem (h.noQuery hscript).1 (h.noQuery hscript).2

private theorem script?_of_isRelative {importer : Importer} {token : String}
    (hquery : Importer.withoutQuery token = token)
    (h : token.toList.head? = some '.' ∨ token.toList.head? = some '/') :
    importer.script? token = importer.relative? token (Importer.scriptFile? importer.index) := by
  unfold Importer.script?
  simp only [hquery, if_pos h]

private theorem phpInclude?_of_isRelative {importer : Importer} {token : String}
    (h : (Importer.isDotted token || token.toList.head? == some '/') = true) :
    importer.phpInclude? token = importer.relative? token fun path =>
      importer.index.probe? path Language.php.sourceSuffixes [] := by
  unfold Importer.phpInclude?
  simp only [if_pos h]

private theorem ruby?_of_isRelative {importer : Importer} {token : String}
    (h : Importer.isDotted token = true) :
    importer.ruby? token = importer.relative? token fun path =>
      importer.index.probe? path Language.ruby.sourceSuffixes [] := by
  unfold Importer.ruby?
  simp only [if_pos h]

theorem ruby?_of_bare {importer : Importer} {token : String}
    (h : Importer.isDotted token = false) :
    importer.ruby? token = ((Importer.searchFrom? [importer.dir, "", "lib"] token fun path =>
      importer.index.probe? path Language.ruby.sourceSuffixes []).map importer.internal).or
        (importer.external? token) := by
  unfold Importer.ruby?
  simp only [h, Bool.false_eq_true, if_false]
  split
  · rename_i file hfile
    rw [hfile, Option.map_some, Option.some_or]
  · rename_i hnone
    rw [hnone, Option.map_none, Option.none_or]

/-- The rules of these languages treat relative paths alike, each with its own search for a file. -/
theorem target?_of_isRelative {importer : Importer} {token : String}
    (hpath : importer.language.family ∈ [.javaScript, .go, .php, .ruby])
    (hrelative : importer.isRelative token = true)
    (hquery : importer.language.family = .javaScript → Importer.withoutQuery token = token) :
    importer.target? token =
      importer.relative? token (importer.index.fileAt? importer.language) := by
  have hscript (hlang : importer.language = .javaScript ∨ importer.language = .typeScript) :
      importer.script? token =
        importer.relative? token (importer.index.fileAt? importer.language) := by
    rcases hlang with hlang | hlang
    all_goals
      rw [Importer.isRelative, hlang, Bool.or_eq_true, decide_eq_true_iff,
        decide_eq_true_iff] at hrelative
      rw [hlang] at hquery
      rw [hlang, script?_of_isRelative (hquery rfl) hrelative]
      rfl
  unfold Importer.target?
  split
  case h_2 hlang => exact hscript (Or.inl hlang)
  case h_3 hlang => exact hscript (Or.inr hlang)
  case h_4 hlang =>
    rw [Importer.isRelative, hlang, decide_eq_true_iff] at hrelative
    rw [Importer.go?, if_pos hrelative, hlang]
    rfl
  case h_8 hlang =>
    rw [Importer.isRelative, hlang, Bool.and_eq_true, decide_eq_true_iff] at hrelative
    rw [if_neg hrelative.1, phpInclude?_of_isRelative (by simpa using hrelative.2), hlang]
    rfl
  case h_9 hlang =>
    rw [Importer.isRelative, hlang] at hrelative
    rw [ruby?_of_isRelative hrelative, hlang]
    rfl
  all_goals
    rename_i hlang
    rw [hlang] at hpath
    exact absurd hpath (by decide)

private theorem isEmpty_of_isRelative {importer : Importer} {token : String}
    (h : importer.isRelative token = true) : token.isEmpty = false := by
  rw [← Bool.not_eq_true, String.isEmpty_iff]
  rintro rfl
  unfold Importer.isRelative at h
  split at h <;> simp [Importer.isDotted, startsWith, stripStart?] at h

theorem relative?_eq_map (importer : Importer) (token : String)
    (probe : String → Option String) :
    importer.relative? token probe =
      ((importer.relativePath? token).bind fun path =>
        (probe path).or (if path.isEmpty then none else some path)).map importer.internal := by
  rw [Importer.relative?, Option.bind_eq_bind, Option.map_bind]
  congr 1
  funext path
  rw [Function.comp_apply]
  cases probe path with
  | some file => rfl
  | none => cases path.isEmpty <;> rfl

/-- A relative reference points at the module at the path that it means. -/
theorem resolve?_of_isPathReference (h : index.IsPathReference reference importing) :
    index.resolve? reference =
      ((reference.meantPath?.bind (index.moduleAt? importing)).map
        (Importer.internal ⟨index, reference.fromFile, importing, reference.kind⟩)).filter
          (isElsewhere reference.fromFile) := by
  rw [resolve?_of_importing (isEmpty_of_isRelative h.relative) h.language,
    target?_of_isRelative h.byPath h.relative h.withoutQuery_eq, relative?_eq_map]
  rfl

theorem join_ne_empty {dir path : String} (h : path ≠ "") : Path.join dir path ≠ "" := by
  rw [Path.join]
  split
  · exact h
  · split
    · rename_i hpath
      exact absurd (String.isEmpty_iff.mp hpath) h
    · intro heq
      exact h (String.append_eq_empty_iff.mp heq).2

private theorem ne_empty_of_mem_candidates {path candidate : String} {suffixes names : List String}
    (hnames : "" ∉ names) (h : candidate ∈ candidates path suffixes names) : candidate ≠ "" := by
  rw [candidates, List.mem_append] at h
  rcases h with h | h
  · split at h
    · cases h
    · rename_i hpath
      rw [String.isEmpty_iff] at hpath
      rcases List.mem_cons.mp h with rfl | h
      · exact hpath
      · obtain ⟨suffix, -, rfl⟩ := List.mem_map.mp h
        exact fun heq => hpath (String.append_eq_empty_iff.mp heq).1
  · obtain ⟨name, hname, h⟩ := List.mem_flatMap.mp h
    obtain ⟨suffix, -, rfl⟩ := List.mem_map.mp h
    apply join_ne_empty
    intro heq
    obtain ⟨rfl, -⟩ := String.append_eq_empty_iff.mp heq
    exact hnames hname

theorem ne_empty_of_probe? {path found : String} {suffixes names : List String}
    (hnames : "" ∉ names) (h : index.probe? path suffixes names = some found) : found ≠ "" :=
  ne_empty_of_mem_candidates hnames (List.mem_of_find?_eq_some h)

private theorem ne_empty_of_moduleAt? {path id : String}
    (h : index.moduleAt? importing path = some id) :
    id ≠ "" := by
  rcases Option.or_eq_some_iff.mp h with h | ⟨-, h⟩
  · unfold fileAt? at h
    split at h
    · rcases Option.or_eq_some_iff.mp h with h | ⟨-, h⟩
      · exact ne_empty_of_probe? (by decide) h
      · split at h
        · cases h
        · exact ne_empty_of_probe? (by decide) h
    · exact ne_empty_of_probe? (by decide) h
    · exact ne_empty_of_probe? (by decide) h
    · cases h
  · split at h
    · cases h
    · rename_i hpath
      rw [← Option.some.inj h]
      simpa using hpath

/-- A reference that a rule turns into a module denotes it. -/
theorem denotes_of_target? (hwritten : reference.written.isEmpty = false)
    (himporting : index.importingLanguage? reference.fromFile = some importing) {id : String}
    (hid : id ≠ "")
    (htarget : Importer.target? ⟨index, reference.fromFile, importing, reference.kind⟩
      reference.written =
        some (Importer.internal ⟨index, reference.fromFile, importing, reference.kind⟩ id)) :
    index.Denotes reference id := by
  have hne : id.isEmpty = false := by simpa using hid
  have hresolve := resolve?_of_importing hwritten himporting
  rw [htarget, Importer.internal, Option.filter_some, isElsewhere, hne, Bool.not_false,
    Bool.and_true] at hresolve
  rw [Denotes]
  split
  · rename_i hself
    rw [hresolve, hself, bne_self_eq_false, if_neg Bool.false_ne_true]
  · rename_i hfile
    rw [if_pos (bne_iff_ne.mpr (Ne.symm hfile))] at hresolve
    exact ⟨_, hresolve⟩

theorem Denotes.ne_external {id package : String} {ecosystem : Ecosystem} {language : Language}
    (h : index.Denotes reference id) :
    index.resolve? reference ≠ some (.external ecosystem package language) := by
  intro hout
  rw [Denotes] at h
  split at h
  · rw [h] at hout
    cases hout
  · obtain ⟨_, h⟩ := h
    rw [h] at hout
    cases hout

private theorem denotes_of_moduleAt? (h : index.IsPathReference reference importing)
    {path id : String}
    (hpath : reference.meantPath? = some path) (hid : index.moduleAt? importing path = some id) :
    index.Denotes reference id := by
  apply denotes_of_target? (isEmpty_of_isRelative h.relative) h.language (ne_empty_of_moduleAt? hid)
  rw [target?_of_isRelative h.byPath h.relative h.withoutQuery_eq, relative?_eq_map]
  have hbind := congrArg (Option.bind · (index.moduleAt? importing)) hpath
  rw [Option.bind_some, hid] at hbind
  exact congrArg (Option.map _) hbind

private theorem resolve?_eq_none_of_moduleAt? (h : index.IsPathReference reference importing)
    (hnone : reference.meantPath?.bind (index.moduleAt? importing) = none) :
    index.resolve? reference = none := by
  rw [resolve?_of_isPathReference h, hnone]
  rfl

/-- Two relative references that mean one path are both dropped, if the path leads above the root or
to the root where no file is found, or else denote one module. -/
theorem denote_same_of_meantPath?_eq (h : index.IsPathReference reference importing)
    (h' : index.IsPathReference other importing') (hfamily : importing.family = importing'.family)
    (hpath : reference.meantPath? = other.meantPath?) :
    (reference.meantPath? = none ∧ index.resolve? reference = none ∧
      index.resolve? other = none) ∨
    (reference.meantPath? = some "" ∧ index.fileAt? importing "" = none ∧
      index.resolve? reference = none ∧ index.resolve? other = none) ∨
    ∃ path id, reference.meantPath? = some path ∧ index.moduleAt? importing path = some id ∧
      index.Denotes reference id ∧ index.Denotes other id := by
  have hmodule : index.moduleAt? importing = index.moduleAt? importing' :=
    moduleAt?_of_family_eq hfamily
  have hdropped (hnone : reference.meantPath?.bind (index.moduleAt? importing) = none) :
      index.resolve? reference = none ∧ index.resolve? other = none := by
    refine ⟨resolve?_eq_none_of_moduleAt? h hnone, resolve?_eq_none_of_moduleAt? h' ?_⟩
    rw [← hpath, ← hmodule]
    exact hnone
  cases hmeant : reference.meantPath? with
  | none =>
    rw [hmeant] at hdropped
    exact Or.inl ⟨rfl, hdropped rfl⟩
  | some path =>
    right
    cases hid : index.moduleAt? importing path with
    | none =>
      left
      rw [hmeant] at hdropped
      obtain ⟨hfile, hroot⟩ := Option.or_eq_none_iff.mp hid
      have hempty : path = "" := by
        by_contra hne
        rw [if_neg (by simpa using hne)] at hroot
        cases hroot
      rw [hempty] at hfile
      exact ⟨congrArg some hempty, hfile, hdropped hid⟩
    | some id =>
      right
      refine ⟨path, id, rfl, hid, denotes_of_moduleAt? h hmeant hid, ?_⟩
      exact denotes_of_moduleAt? h' (hpath.symm.trans hmeant) (hmodule ▸ hid)

def fromBeside : Reference := ⟨"lib/tree.rb", "./set", .requires, 1⟩

def toItself : Reference := ⟨"lib/set.rb", "../lib/.//set", .requires, 7⟩

private theorem isPathReference_fromBeside : setLibrary.IsPathReference fromBeside .ruby := by
  refine ⟨?_, by decide, by decide, by decide⟩
  rw [importingLanguage?, language?_setLibrary]
  decide

private theorem isPathReference_toItself : setLibrary.IsPathReference toItself .ruby := by
  refine ⟨?_, by decide, by decide, by decide⟩
  rw [importingLanguage?, language?_setLibrary]
  decide

private theorem moduleAt?_setLibrary :
    setLibrary.moduleAt? .ruby "lib/set" = some "lib/set.rb" := by
  have hfile : setLibrary.fileAt? .ruby "lib/set" = some "lib/set.rb" := by
    change (candidates "lib/set" [".rb"] []).find? setLibrary.contains = _
    rw [funext contains_setLibrary]
    decide
  rw [moduleAt?, hfile, Option.some_or]

/-- Both denote the file, so that the reference from the file is dropped. -/
theorem denote_same_of_meantPath?_eq_setLibrary :
    fromBeside.meantPath? = toItself.meantPath? ∧
      (∃ language, setLibrary.resolve? fromBeside = some (.internal "lib/set.rb" language)) ∧
      setLibrary.resolve? toItself = none := by
  have hmeant : fromBeside.meantPath? = some "lib/set" := by decide
  have hmeant' : toItself.meantPath? = some "lib/set" := by decide
  have hsame : fromBeside.meantPath? = toItself.meantPath? := hmeant.trans hmeant'.symm
  have hdenote := denote_same_of_meantPath?_eq isPathReference_fromBeside
    isPathReference_toItself rfl hsame
  rw [hmeant] at hdenote
  obtain ⟨hnone, -⟩ | ⟨hroot, -⟩ | ⟨path, id, hpath, hid, hdenotes, hdenotes'⟩ := hdenote
  · cases hnone
  · exact absurd (Option.some.inj hroot) (by decide)
  · obtain rfl := Option.some.inj hpath
    obtain rfl := Option.some.inj (moduleAt?_setLibrary.symm.trans hid)
    refine ⟨hsame, ?_, ?_⟩
    · rwa [Denotes, if_neg (by decide)] at hdenotes
    · rwa [Denotes, if_pos (by decide)] at hdenotes'

end RepoIndex

end RepoGraph
