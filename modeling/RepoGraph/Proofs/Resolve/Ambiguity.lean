import RepoGraph.Proofs.Resolve.Origin
import RepoGraph.Proofs.Resolve.TargetIds

/-!
# Targets with one id

The id of a package tells the ecosystem and the package. A module can have the id of a package only
where its path or name brings in the name of the ecosystem with a colon behind it.
-/

namespace RepoGraph

open Text

section Mark

variable {mark : List Char}

theorem isPrefix_of_isPrefix_append_slash {s rest : List Char} (hslash : '/' ∉ mark)
    (h : mark <+: s ++ '/' :: rest) : mark <+: s := by
  rcases List.prefix_or_prefix_of_prefix h (List.prefix_append s _) with hs | ⟨tail, rfl⟩
  · exact hs
  · -- The mark goes on behind the text, where the slash stands.
    rw [List.prefix_append_right_inj] at h
    cases tail with
    | nil => exact ⟨[], by simp⟩
    | cons c tail =>
      rw [List.cons_prefix_cons] at h
      obtain ⟨rfl, -⟩ := h
      exact absurd (List.mem_append_right s List.mem_cons_self) hslash

private theorem isPrefix_join {dir path : String} (hslash : '/' ∉ mark)
    (h : mark <+: (Path.join dir path).toList) : mark <+: dir.toList ∨ mark <+: path.toList := by
  rw [Path.join] at h
  split at h
  · exact Or.inr h
  · split at h
    · exact Or.inl h
    · left
      rw [String.toList_append, String.toList_append, List.append_assoc] at h
      exact isPrefix_of_isPrefix_append_slash hslash h

private theorem exists_isPrefix_of_intercalate {names : List String} (hmark : mark ≠ [])
    (hslash : '/' ∉ mark) (h : mark <+: ("/".intercalate names).toList) :
    ∃ name ∈ names, mark <+: name.toList := by
  cases names with
  | nil => exact absurd (List.prefix_nil.mp h) hmark
  | cons name names =>
    refine ⟨name, List.mem_cons_self, ?_⟩
    cases names with
    | nil => rwa [String.intercalate_singleton] at h
    | cons next names =>
      rw [String.intercalate_cons_cons, String.toList_append, String.toList_append,
        List.append_assoc] at h
      exact isPrefix_of_isPrefix_append_slash hslash h

private theorem exists_isPrefix_of_normalize? {path result : String} (hmark : mark ≠ [])
    (hslash : '/' ∉ mark) (hresult : Path.normalize? path = some result)
    (h : mark <+: result.toList) : ∃ segment ∈ Path.segments path, mark <+: segment.toList := by
  obtain ⟨names, rfl, hnames⟩ := Path.eq_intercalate_of_normalize? hresult
  obtain ⟨name, hname, hprefix⟩ := exists_isPrefix_of_intercalate hmark hslash h
  exact ⟨name, (hnames name hname).2, hprefix⟩

private theorem isInfix_of_mem_segments_join {dir path segment : String}
    (h : segment ∈ Path.segments (Path.join dir path)) :
    segment.toList <:+: dir.toList ∨ segment.toList <:+: path.toList := by
  by_cases hd : dir = ""
  · rw [hd, Path.join, if_pos (by simp)] at h
    exact Or.inr (Path.isInfix_of_mem_segments h)
  · by_cases hp : path = ""
    · rw [hp, Path.join, if_neg (by simpa using hd), if_pos (by simp)] at h
      exact Or.inl (Path.isInfix_of_mem_segments h)
    · rw [Path.segments_join hd hp] at h
      exact (List.mem_append.mp h).imp Path.isInfix_of_mem_segments Path.isInfix_of_mem_segments

private theorem isPrefix_of_isPrefix_map {s : List Char} (hslash : '/' ∉ mark)
    (h : mark <+: s.map fun c => if c == '.' then '/' else c) : mark <+: s := by
  induction mark generalizing s with
  | nil => exact List.nil_prefix
  | cons m mark ih =>
    obtain ⟨hm, hrest⟩ := not_or.mp (mt List.mem_cons.mpr hslash)
    cases s with
    | nil => exact absurd (List.prefix_nil.mp h) (List.cons_ne_nil m mark)
    | cons c s =>
      rw [List.map_cons, List.cons_prefix_cons] at h
      obtain ⟨hc, h⟩ := h
      rw [List.cons_prefix_cons]
      refine ⟨?_, ih hrest h⟩
      -- A dot that became a slash stands for no character of the mark.
      split at hc
      · exact absurd hc.symm hm
      · exact hc

end Mark

/-- The text that the ids of an ecosystem's packages start with. -/
def Ecosystem.mark (ecosystem : Ecosystem) : String := ecosystem.packageId ""

private theorem Ecosystem.mark_isPrefix (ecosystem : Ecosystem) (package : String) :
    ecosystem.mark.toList <+: (ecosystem.packageId package).toList := by
  have hid : ecosystem.packageId package = ecosystem.mark ++ package := by
    rw [mark, packageId, packageId, String.append_empty]
  rw [hid, String.toList_append]
  exact List.prefix_append _ _

private theorem Ecosystem.slash_notMem_mark (ecosystem : Ecosystem) :
    '/' ∉ ecosystem.mark.toList := by
  cases ecosystem <;> decide

private theorem Ecosystem.mark_ne_nil (ecosystem : Ecosystem) : ecosystem.mark.toList ≠ [] := by
  cases ecosystem <;> decide

/-- The texts that go into the id of the module that a reference resolves to. -/
inductive RepoIndex.IdText (index : RepoIndex) (reference : Reference) : String → Prop
  | path {path : String} (indexed : index.Indexes path) : IdText index reference path
  | namespaceName {name : String} (declared : index.hasNamespace name = true) :
      IdText index reference name
  | moduleDir {module : GoModule} (listed : module ∈ index.goModules) :
      IdText index reference module.dir
  | file : IdText index reference reference.fromFile
  | token : IdText index reference reference.token

/-- Whether an ecosystem's mark stands in a text that goes into the ids of modules. -/
def RepoIndex.Mentions (index : RepoIndex) (reference : Reference) (ecosystem : Ecosystem) : Prop :=
  ∃ text, index.IdText reference text ∧ ecosystem.mark.toList <:+: text.toList

section Texts

variable {index : RepoIndex} {reference : Reference} {mark : List Char} {id : String}

private theorem written_isInfix (reference : Reference) :
    reference.written.toList <:+: reference.token.toList := by
  rw [Reference.written, String.toList_ofList]
  exact trim_isInfix _

private theorem parent_isInfix {dir file : String} (h : dir.toList <:+: file.toList) :
    (Path.parent dir).toList <:+: file.toList :=
  (Path.parent_isPrefix dir).isInfix.trans h

private theorem childDir_isInfix (file : String) :
    (Importer.childDir file).toList <:+: file.toList := by
  have hstem : (Path.stem file).toList <:+: file.toList :=
    (Path.stem_isPrefix file).isInfix.trans
      (Path.isInfix_of_mem_segments (Path.fileName_mem_segments file))
  have hparent : (Path.parent file).toList <:+: file.toList := (Path.parent_isPrefix file).isInfix
  rw [Importer.childDir]
  split
  · exact hparent
  · rw [Path.join]
    split
    · exact hstem
    · split
      · exact hparent
      · rename_i hdir _
        cases hcut : cutLast? '/' file.toList with
        | none =>
          rw [Path.parent, Path.parentChars, hcut] at hdir
          exact absurd rfl hdir
        | some parts =>
          obtain ⟨dir, name⟩ := parts
          have hname := Path.stem_isPrefix file
          rw [Path.fileName, hcut] at hname
          have hfile := (Path.eq_append_of_cutLast? hcut).1
          have happend (last : String) : (String.ofList dir ++ "/" ++ last).toList =
              (String.ofList dir ++ "/").toList ++ last.toList := String.toList_append
          rw [Path.parent, Path.parentChars, hcut, congrArg String.toList hfile, happend, happend]
          exact ((List.prefix_append_right_inj _).mpr hname).isInfix

private theorem Importer.Origin.exists_isInfix {importing : Language} (hmark : mark ≠ [])
    (hslash : '/' ∉ mark)
    (horigin : Importer.Origin ⟨index, reference.fromFile, importing, reference.kind⟩
      reference.written id)
    (hid : mark <+: id.toList) : ∃ text, index.IdText reference text ∧ mark <:+: text.toList := by
  have ofFile {part : String} (hpart : part.toList <:+: reference.fromFile.toList)
      (h : mark <:+: part.toList) : ∃ text, index.IdText reference text ∧ mark <:+: text.toList :=
    ⟨_, .file, h.trans hpart⟩
  have ofToken {part : List Char} (hpart : part <:+: reference.written.toList)
      (h : mark <:+: part) : ∃ text, index.IdText reference text ∧ mark <:+: text.toList :=
    ⟨_, .token, h.trans (hpart.trans (written_isInfix reference))⟩
  cases horigin with
  | indexed found => exact ⟨_, .path found, hid.isInfix⟩
  | declared names found => exact ⟨_, .namespaceName found, hid.isInfix⟩
  | relative relative part meant =>
    obtain ⟨segment, hsegment, hprefix⟩ := exists_isPrefix_of_normalize? hmark hslash meant hid
    split at hsegment
    · exact ofToken ((Path.isInfix_of_mem_segments hsegment).trans part.isInfix) hprefix.isInfix
    · rcases isInfix_of_mem_segments_join hsegment with hcut | hcut
      · exact ofFile (hcut.trans (Path.parent_isPrefix _).isInfix) hprefix.isInfix
      · exact ofToken (hcut.trans part.isInfix) hprefix.isInfix
  | dotted python relative climbed =>
    rcases isPrefix_join hslash hid with hprefix | hprefix
    · have hdir := Importer.climb?_induction
        (P := fun dir => dir.toList <:+: reference.fromFile.toList) (fun _ => parent_isInfix)
        (Path.parent_isPrefix reference.fromFile).isInfix climbed
      exact ofFile hdir hprefix.isInfix
    · rw [Importer.dottedPath, String.toList_ofList] at hprefix
      exact ofToken (List.dropWhile_suffix _).isInfix
        (isPrefix_of_isPrefix_map hslash hprefix).isInfix
  | goPackage go bare found =>
    split at hid
    · exact ofToken List.infix_rfl hid.isInfix
    · obtain ⟨module, hmodule, rfl | ⟨rest, hrest, rfl⟩⟩ := RepoIndex.of_goPackageDir? found
      · exact ⟨_, .moduleDir hmodule, hid.isInfix⟩
      · rcases isPrefix_join hslash hid with hprefix | hprefix
        · exact ⟨_, .moduleDir hmodule, hprefix.isInfix⟩
        · rw [congrArg String.toList hrest, String.toList_append] at ofToken
          exact ofToken (List.suffix_append _ _).isInfix hprefix.isInfix
  | crateModule rust names inCrate start =>
    obtain ⟨hdir, hrest⟩ := Importer.pathStart?_induction start
      (P := fun dir => dir.toList <:+: reference.fromFile.toList) (fun _ => parent_isInfix)
      (Path.parent_isPrefix reference.fromFile).isInfix (childDir_isInfix reference.fromFile)
    rcases isPrefix_join hslash hid with hprefix | hprefix
    · exact ofFile hdir hprefix.isInfix
    · obtain ⟨name, hname, hprefix⟩ := exists_isPrefix_of_intercalate hmark hslash hprefix
      obtain ⟨piece, hpiece, rfl⟩ := List.mem_map.mp (hrest hname)
      rw [String.toList_ofList] at hprefix
      exact ofToken (isInfix_of_mem_splitOnText (List.mem_filter.mp hpiece).1) hprefix.isInfix

/-- A module with the id of a package has the mark of the ecosystem from one of the texts. -/
theorem RepoIndex.mentions_of_resolve? {language : Language} {ecosystem : Ecosystem}
    {package : String} (h : index.resolve? reference = some (.internal id language))
    (hid : id = ecosystem.packageId package) : index.Mentions reference ecosystem := by
  obtain ⟨importing, -, horigin, -⟩ := RepoIndex.origin_of_resolve? h
  apply horigin.exists_isInfix ecosystem.mark_ne_nil ecosystem.slash_notMem_mark
  rw [hid]
  exact ecosystem.mark_isPrefix package

end Texts

/-- Two references that resolve to one id mean two modules, or one package of one ecosystem, or a
module and a package whose ecosystem the texts of the module's id mention. -/
theorem RepoIndex.targets_of_nodeId_eq {index : RepoIndex} {reference other : Reference}
    {target target' : Target} (h : index.resolve? reference = some target)
    (h' : index.resolve? other = some target') (hid : target.nodeId = target'.nodeId) :
    (∃ id language language', target = .internal id language ∧ target' = .internal id language') ∨
    (∃ ecosystem package language language', target = .external ecosystem package language ∧
      target' = .external ecosystem package language') ∨
    (∃ id ecosystem package language language', target = .internal id language ∧
      target' = .external ecosystem package language' ∧ index.Mentions reference ecosystem) ∨
    (∃ id ecosystem package language language', target = .external ecosystem package language ∧
      target' = .internal id language' ∧ index.Mentions other ecosystem) := by
  cases target with
  | internal id language =>
    cases target' with
    | internal id' language' =>
      obtain rfl : id = id' := hid
      exact Or.inl ⟨id, language, language', rfl, rfl⟩
    | external ecosystem package language' =>
      exact Or.inr (Or.inr (Or.inl ⟨id, ecosystem, package, language, language', rfl, rfl,
        mentions_of_resolve? h hid⟩))
  | external ecosystem package language =>
    cases target' with
    | internal id' language' =>
      exact Or.inr (Or.inr (Or.inr ⟨id', ecosystem, package, language, language', rfl, rfl,
        mentions_of_resolve? h' hid.symm⟩))
    | external ecosystem' package' language' =>
      obtain ⟨rfl, rfl⟩ := Ecosystem.packageId_inj.mp hid
      exact Or.inr (Or.inl ⟨ecosystem, package, language, language', rfl, rfl⟩)

section EmptyIndex

def ofScript (token : String) : Reference := ⟨"a.js", token, .imports, 1⟩

def loneScript : Importer := ⟨{}, "a.js", .javaScript, .imports⟩

private theorem scriptFile?_empty (path : String) : Importer.scriptFile? {} path = none := by
  have hcontains (path : String) : ({} : RepoIndex).contains path = false := by
    simp [RepoIndex.contains]
  simp [Importer.scriptFile?, RepoIndex.probe?, hcontains]

theorem resolve?_ofScript {token : String} {target : Target}
    (htrim : (ofScript token).written = token) (htoken : token.isEmpty = false)
    (htarget : loneScript.script? token = some target)
    (helse : RepoIndex.isElsewhere "a.js" target = true) :
    ({} : RepoIndex).resolve? (ofScript token) = some target := by
  have hlanguage : ({} : RepoIndex).importingLanguage? "a.js" = some .javaScript := by
    rw [RepoIndex.importingLanguage?, RepoIndex.language?, Std.HashMap.getElem?_empty]
    decide
  rw [RepoIndex.resolve?_eq_some_iff, htrim]
  exact ⟨htoken, .javaScript, hlanguage, htarget, helse⟩

theorem script?_bare {token : String} (hquery : Importer.withoutQuery token = token)
    (hbare : ¬ (token.toList.head? = some '.' ∨ token.toList.head? = some '/')) :
    loneScript.script? token = loneScript.external? (Importer.withoutScheme token) := by
  have hpath : (Path.normalize? token).bind (Importer.scriptFile? loneScript.index) = none := by
    cases Path.normalize? token with
    | none => rfl
    | some path => exact scriptFile?_empty path
  have haliased : Importer.aliased? loneScript.index token = none := by
    cases hafter : Importer.afterAlias? token with
    | none => rw [Importer.aliased?, hafter, Option.bind_none]
    | some path => simp [Importer.aliased?, hafter, loneScript, scriptFile?_empty]
  unfold Importer.script?
  simp only [hquery, if_neg hbare, haliased, hpath, Option.none_or]

private theorem resolve?_chart :
    ({} : RepoIndex).resolve? (ofScript "chart.js") =
      some (.external .npm "chart.js" .javaScript) := by
  apply resolve?_ofScript (by decide) (by decide) ?_ (by decide)
  rw [script?_bare (by decide) (by decide)]
  decide

private theorem resolve?_chartPath :
    ({} : RepoIndex).resolve? (ofScript "./npm:chart.js") =
      some (.internal "npm:chart.js" .javaScript) := by
  apply resolve?_ofScript (by decide) (by decide) ?_ (by decide)
  have hquery : Importer.withoutQuery "./npm:chart.js" = "./npm:chart.js" := by decide
  have hpath : loneScript.relativePath? "./npm:chart.js" = some "npm:chart.js" := by decide
  have hinternal : loneScript.internal "npm:chart.js" = .internal "npm:chart.js" .javaScript := by
    simp [loneScript, Importer.internal, RepoIndex.language?, RepoIndex.namespaceLanguage?]
  have hrelative : loneScript.relative? "./npm:chart.js" (Importer.scriptFile? {}) =
      some (.internal "npm:chart.js" .javaScript) := by
    simp [Importer.relative?, hpath, scriptFile?_empty, hinternal]
  unfold Importer.script?
  rw [hquery]
  exact hrelative

/-- The module and the package have one id, and the reference to the module mentions the
package's ecosystem. -/
theorem targets_of_nodeId_eq_chart :
    ({} : RepoIndex).resolve? (ofScript "./npm:chart.js") =
        some (.internal "npm:chart.js" .javaScript) ∧
      ({} : RepoIndex).resolve? (ofScript "chart.js") =
        some (.external .npm "chart.js" .javaScript) ∧
      ({} : RepoIndex).Mentions (ofScript "./npm:chart.js") .npm := by
  refine ⟨resolve?_chartPath, resolve?_chart, ?_⟩
  have hid : (Target.internal "npm:chart.js" .javaScript).nodeId =
      (Target.external .npm "chart.js" .javaScript).nodeId := by decide
  rcases RepoIndex.targets_of_nodeId_eq resolve?_chartPath resolve?_chart hid with
    ⟨_, _, _, _, h⟩ | ⟨_, _, _, _, h, _⟩ | ⟨_, _, _, _, _, _, h, hmentions⟩ |
      ⟨_, _, _, _, _, h, _⟩
  · cases h
  · cases h
  · cases h
    exact hmentions
  · cases h

/-- Equal ids alone do not keep modules and packages apart. -/
theorem module_and_package_share_id :
    ¬ ∀ (index : RepoIndex) (reference other : Reference) (target target' : Target),
      index.resolve? reference = some target → index.resolve? other = some target' →
      target.nodeId = target'.nodeId →
      (∃ id language language', target = .internal id language ∧
        target' = .internal id language') ∨
      (∃ ecosystem package language language', target = .external ecosystem package language ∧
        target' = .external ecosystem package language') := by
  intro h
  have hid : (Target.internal "npm:chart.js" .javaScript).nodeId =
      (Target.external .npm "chart.js" .javaScript).nodeId := by decide
  rcases h {} _ _ _ _ resolve?_chartPath resolve?_chart hid with
    ⟨_, _, _, _, h⟩ | ⟨_, _, _, _, h, _⟩
  · cases h
  · cases h

end EmptyIndex

end RepoGraph
