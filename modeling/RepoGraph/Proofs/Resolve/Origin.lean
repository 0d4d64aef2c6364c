import RepoGraph.Proofs.Path.NormalForm
import RepoGraph.Resolve

/-!
# Where the ids of modules come from

A rule makes the id of a module from an indexed path, a declared name or the text of the reference,
in one of few ways. Each way says all that the later results on ids need of the rules.
-/

namespace RepoGraph

open Text

/-- Whether a path is indexed, as a file or under its name. -/
def RepoIndex.Indexes (index : RepoIndex) (path : String) : Prop :=
  index.contains path = true ∨ ∃ name, path ∈ index.named.getD name []

namespace RepoIndex

variable {index : RepoIndex} {path found : String}

private theorem contains_of_probe? {suffixes names : List String}
    (h : index.probe? path suffixes names = some found) : index.contains found = true :=
  List.find?_some h

private theorem indexes_of_findBySuffix? {suffix : String}
    (h : index.findBySuffix? suffix = some found) :
    index.Indexes found :=
  Or.inr ⟨_, List.mem_of_find?_eq_some h⟩

/-- The directory of a Go package is that of its module or lies below it. -/
theorem of_goPackageDir? {dir : String}
    (h : index.goPackageDir? path = some dir) :
    ∃ module ∈ index.goModules, dir = module.dir ∨
      ∃ rest, path = module.path ++ "/" ++ rest ∧ dir = Path.join module.dir rest := by
  obtain ⟨module, hmodule, h⟩ := List.exists_of_findSome?_eq_some h
  refine ⟨module, hmodule, ?_⟩
  rw [GoModule.packageDir?] at h
  split at h
  · exact Or.inl (Option.some.inj h).symm
  · right
    obtain ⟨rest, hrest, rfl⟩ := Option.map_eq_some_iff.mp h
    refine ⟨String.ofList rest, ?_, rfl⟩
    apply String.toList_inj.mp
    rw [stripStart?_eq_some_iff.mp hrest]
    simp

end RepoIndex

namespace Importer

variable {importer : Importer} {token id : String} {language : Language}

/-- Whether the references of a file are names that packages or namespaces declare. -/
def importsNames (importer : Importer) : Bool :=
  match importer.language with
  | .java | .kotlin | .cSharp => true
  | .php => importer.kind = .uses
  | _ => false

def isRelative (importer : Importer) (token : String) : Bool :=
  match importer.language with
  | .python | .go | .c | .cpp => token.toList.head? = some '.'
  | .javaScript | .typeScript => token.toList.head? = some '.' || token.toList.head? = some '/'
  | .php => importer.kind ≠ .uses && (isDotted token || token.toList.head? = some '/')
  | .ruby => isDotted token
  | .java | .kotlin | .cSharp | .rust => false

def dottedPath (token : String) : String :=
  String.ofList ((token.toList.dropWhile (· == '.')).map fun c => if c == '.' then '/' else c)

def rustNames (token : String) : List String :=
  ((splitOnText [':', ':'] token.toList).filter (!·.isEmpty)).map String.ofList

/-- The ways in which a reference gets to the id of a module. -/
inductive Origin (importer : Importer) (token : String) : String → Prop
  /-- A file is found. -/
  | indexed {path : String} (found : importer.index.Indexes path) : Origin importer token path
  /-- A package or namespace is found. -/
  | declared {name : String} (names : importer.importsNames = true)
      (found : importer.index.hasNamespace name = true) : Origin importer token name
  /-- A relative path is taken as it is, without a query behind it. -/
  | relative {written path : String} (relative : importer.isRelative token = true)
      (part : written.toList <+: token.toList)
      (meant : importer.relativePath? written = some path) : Origin importer token path
  /-- A relative Python reference is taken as it is. -/
  | dotted {levels : Nat} {dir : String} (python : importer.language = .python)
      (relative : importer.isRelative token = true)
      (climbed : climb? levels importer.dir = some dir) :
      Origin importer token (Path.join dir (dottedPath token))
  /-- A Go package lies in a module of the repository. -/
  | goPackage {dir : String} (go : importer.language = .go)
      (bare : importer.isRelative token = false)
      (found : importer.index.goPackageDir? token = some dir) :
      Origin importer token (if dir.isEmpty then token else dir)
  /-- A Rust path that starts in its crate is taken as it is. -/
  | crateModule {dir first : String} {more rest : List String} (rust : importer.language = .rust)
      (names : rustNames token = first :: more) (inCrate : first ∈ ["crate", "self", "super"])
      (start : importer.pathStart? (rustNames token) = some (some (dir, rest))) :
      Origin importer token (Path.join dir ("/".intercalate rest))

private theorem some_internal_eq {path : String}
    (h : some (importer.internal path) = some (.internal id language)) : path = id :=
  (Target.internal.inj (Option.some.inj h)).1

private theorem external?_ne_internal :
    importer.external? token ≠ some (.internal id language) := by
  unfold external?
  dsimp only
  intro h
  split at h <;> cases h

private theorem of_relative? {probe : String → Option String}
    (h : importer.relative? token probe = some (.internal id language)) :
    ∃ path, importer.relativePath? token = some path ∧ (probe path = some id ∨ path = id) := by
  obtain ⟨path, hpath, h⟩ := Option.bind_eq_some_iff.mp h
  refine ⟨path, hpath, ?_⟩
  split at h
  · rename_i file hfile
    left
    rw [hfile, some_internal_eq h]
  · right
    split at h
    · cases h
    · exact some_internal_eq h

private theorem of_searchFrom? {dirs : List String} {probe : String → Option String}
    (h : searchFrom? dirs token probe = some id) : ∃ path, probe path = some id := by
  obtain ⟨dir, -, hdir⟩ := List.exists_of_findSome?_eq_some h
  obtain ⟨path, -, hpath⟩ := Option.bind_eq_some_iff.mp hdir
  exact ⟨path, hpath⟩

private theorem hasNamespace_of_namespaceOf? {separator : String} {parts : List String}
    (h : importer.namespaceOf? separator parts = some id) :
    importer.index.hasNamespace id = true :=
  List.find?_some h

private theorem origin_of_relative? {written : String} {probe : String → Option String}
    (hrelative : importer.isRelative token = true) (hpart : written.toList <+: token.toList)
    (hprobe : ∀ path, probe path = some id → importer.index.Indexes id)
    (h : importer.relative? written probe = some (.internal id language)) :
    importer.Origin token id := by
  obtain ⟨path, hpath, hfile | rfl⟩ := of_relative? h
  · exact .indexed (hprobe path hfile)
  · exact .relative hrelative hpart hpath

private theorem pythonFile?_indexes {index : RepoIndex} {path : String}
    (h : pythonFile? index path = some id) : index.Indexes id :=
  Or.inl (RepoIndex.contains_of_probe? h)

private theorem origin_of_python? (hlang : importer.language = .python)
    (h : importer.python? token = some (.internal id language)) : importer.Origin token id := by
  unfold python? at h
  split at h
  · rename_i hdot
    have hrelative : importer.isRelative token = true := by
      rw [isRelative, hlang]
      exact decide_eq_true hdot
    obtain ⟨dir, hdir, h⟩ := Option.bind_eq_some_iff.mp h
    dsimp only at h
    split at h
    · rename_i file hfile
      obtain rfl := some_internal_eq h
      exact .indexed (pythonFile?_indexes hfile)
    · split at h
      · cases h
      · obtain rfl := some_internal_eq h
        exact .dotted hlang hrelative hdir
  · split at h
    · rename_i file hfile
      obtain rfl := some_internal_eq h
      obtain ⟨root, -, hroot⟩ := List.exists_of_findSome?_eq_some hfile
      obtain ⟨part, -, hpart⟩ := List.exists_of_findSome?_eq_some hroot
      exact .indexed (pythonFile?_indexes hpart)
    · exact absurd h external?_ne_internal

private theorem scriptFile?_indexes {index : RepoIndex} {path : String}
    (h : scriptFile? index path = some id) : index.Indexes id := by
  rcases Option.or_eq_some_iff.mp h with h | ⟨-, h⟩
  · exact Or.inl (RepoIndex.contains_of_probe? h)
  · split at h
    · cases h
    · exact Or.inl (RepoIndex.contains_of_probe? h)

theorem head?_of_isPrefix {part s : List Char} {c : Char} (h : part <+: s)
    (hhead : part.head? = some c) : s.head? = some c := by
  obtain ⟨rest, rfl⟩ := h
  cases part with
  | nil => cases hhead
  | cons d part => exact hhead

private theorem origin_of_script?
    (hlang : importer.language = .javaScript ∨ importer.language = .typeScript)
    (h : importer.script? token = some (.internal id language)) : importer.Origin token id := by
  have hpart : (withoutQuery token).toList <+: token.toList := by
    rw [withoutQuery, String.toList_ofList]
    exact List.takeWhile_prefix _
  unfold script? at h
  dsimp only at h
  split at h
  · rename_i hfirst
    have hrelative : importer.isRelative token = true := by
      have htoken := hfirst.imp (head?_of_isPrefix hpart) (head?_of_isPrefix hpart)
      rcases hlang with hlang | hlang
      all_goals
        rw [isRelative, hlang]
        simpa using htoken
    exact origin_of_relative? hrelative hpart (fun _ => scriptFile?_indexes) h
  · split at h
    · rename_i file hfile
      obtain rfl := some_internal_eq h
      rcases Option.or_eq_some_iff.mp hfile with hfile | ⟨-, hfile⟩
      · obtain ⟨path, -, hpath⟩ := Option.bind_eq_some_iff.mp hfile
        obtain ⟨root, -, hroot⟩ := List.exists_of_findSome?_eq_some hpath
        exact .indexed (scriptFile?_indexes hroot)
      · obtain ⟨path, -, hpath⟩ := Option.bind_eq_some_iff.mp hfile
        exact .indexed (scriptFile?_indexes hpath)
    · exact absurd h external?_ne_internal

private theorem origin_of_go? (hlang : importer.language = .go)
    (h : importer.go? token = some (.internal id language)) : importer.Origin token id := by
  have hwritten : importer.isRelative token = decide (token.toList.head? = some '.') := by
    rw [isRelative, hlang]
  unfold go? at h
  split at h
  · rename_i hdot
    have hrelative : importer.isRelative token = true := hwritten.trans (decide_eq_true hdot)
    have hprobe (path : String) (hnone : none = some id) : importer.index.Indexes id :=
      absurd hnone (Option.some_ne_none id).symm
    exact origin_of_relative? hrelative List.prefix_rfl hprobe h
  · rename_i hdot
    have hbare : importer.isRelative token = false := hwritten.trans (decide_eq_false hdot)
    split at h
    · rename_i dir hdir
      obtain rfl := some_internal_eq h
      exact .goPackage hlang hbare hdir
    · exact absurd h external?_ne_internal

private theorem classFile?_indexes {index : RepoIndex} {parts : List String}
    (h : classFile? index parts = some id) : index.Indexes id := by
  obtain ⟨part, -, hpart⟩ := List.exists_of_findSome?_eq_some h
  obtain ⟨suffix, -, hsuffix⟩ := List.exists_of_findSome?_eq_some hpart
  exact RepoIndex.indexes_of_findBySuffix? hsuffix

private theorem origin_of_jvm? (hnames : importer.importsNames = true)
    (h : importer.jvm? token = some (.internal id language)) : importer.Origin token id := by
  unfold jvm? at h
  dsimp only at h
  split at h
  · rename_i found hfound
    obtain rfl := some_internal_eq h
    rcases Option.or_eq_some_iff.mp hfound with hfound | ⟨-, hfound⟩
    · exact .indexed (classFile?_indexes hfound)
    · exact .declared hnames (hasNamespace_of_namespaceOf? hfound)
  · exact absurd h external?_ne_internal

private theorem origin_of_cSharp? (hnames : importer.importsNames = true)
    (h : importer.cSharp? token = some (.internal id language)) : importer.Origin token id := by
  unfold cSharp? at h
  split at h
  · rename_i found hfound
    obtain rfl := some_internal_eq h
    exact .declared hnames (hasNamespace_of_namespaceOf? hfound)
  · exact absurd h external?_ne_internal

private theorem phpClassFile?_indexes {index : RepoIndex} {parts : List String}
    (h : phpClassFile? index parts = some id) : index.Indexes id := by
  obtain ⟨skipped, -, hskipped⟩ := List.exists_of_findSome?_eq_some h
  exact RepoIndex.indexes_of_findBySuffix? hskipped

private theorem origin_of_phpUse? (hnames : importer.importsNames = true)
    (h : importer.phpUse? token = some (.internal id language)) : importer.Origin token id := by
  unfold phpUse? at h
  dsimp only at h
  split at h
  · cases h
  · split at h
    · rename_i found hfound
      obtain rfl := some_internal_eq h
      rcases Option.or_eq_some_iff.mp hfound with hfound | ⟨-, hfound⟩
      · exact .indexed (phpClassFile?_indexes hfound)
      · exact .declared hnames (hasNamespace_of_namespaceOf? hfound)
    · exact absurd h external?_ne_internal

private theorem origin_of_phpInclude? (hlang : importer.language = .php)
    (hkind : importer.kind ≠ .uses)
    (h : importer.phpInclude? token = some (.internal id language)) : importer.Origin token id := by
  unfold phpInclude? at h
  dsimp only at h
  split at h
  · rename_i hwritten
    have hrelative : importer.isRelative token = true := by
      rw [isRelative, hlang]
      simpa [hkind] using hwritten
    exact origin_of_relative? hrelative List.prefix_rfl
      (fun _ hfile => Or.inl (RepoIndex.contains_of_probe? hfile)) h
  · split at h
    · rename_i file hfile
      obtain rfl := some_internal_eq h
      obtain ⟨path, hpath⟩ := of_searchFrom? hfile
      exact .indexed (Or.inl (RepoIndex.contains_of_probe? hpath))
    · exact absurd h external?_ne_internal

private theorem origin_of_ruby? (hlang : importer.language = .ruby)
    (h : importer.ruby? token = some (.internal id language)) : importer.Origin token id := by
  unfold ruby? at h
  dsimp only at h
  split at h
  · rename_i hwritten
    have hrelative : importer.isRelative token = true := by
      rw [isRelative, hlang]
      exact hwritten
    exact origin_of_relative? hrelative List.prefix_rfl
      (fun _ hfile => Or.inl (RepoIndex.contains_of_probe? hfile)) h
  · split at h
    · rename_i file hfile
      obtain rfl := some_internal_eq h
      obtain ⟨path, hpath⟩ := of_searchFrom? hfile
      exact .indexed (Or.inl (RepoIndex.contains_of_probe? hpath))
    · exact absurd h external?_ne_internal

private theorem header?_indexes (h : importer.header? token = some id) :
    importer.index.Indexes id := by
  rcases Option.or_eq_some_iff.mp h with h | ⟨-, h⟩
  · obtain ⟨path, hpath⟩ := of_searchFrom? h
    split at hpath
    · rename_i hcontains
      obtain rfl := Option.some.inj hpath
      exact Or.inl hcontains
    · cases hpath
  · exact RepoIndex.indexes_of_findBySuffix? h

private theorem origin_of_cFamily? (hlang : importer.language = .c ∨ importer.language = .cpp)
    (h : importer.cFamily? token = some (.internal id language)) : importer.Origin token id := by
  unfold cFamily? at h
  split at h
  · split at h
    · rename_i file hfile
      obtain rfl := some_internal_eq h
      exact .indexed (RepoIndex.indexes_of_findBySuffix? hfile)
    · exact absurd h external?_ne_internal
  · split at h
    · rename_i file hfile
      obtain rfl := some_internal_eq h
      exact .indexed (header?_indexes hfile)
    · split at h
      · rename_i hdot
        have hrelative : importer.isRelative token = true := by
          rcases hlang with hlang | hlang
          all_goals
            rw [isRelative, hlang]
            exact decide_eq_true hdot
        have hprobe (path : String) (hnone : none = some id) : importer.index.Indexes id :=
          absurd hnone (Option.some_ne_none id).symm
        exact origin_of_relative? hrelative List.prefix_rfl hprobe h
      · exact absurd h external?_ne_internal

private theorem contains_of_moduleFile? {index : RepoIndex} {path : String}
    (h : moduleFile? index path = some id) : index.contains id = true :=
  List.find?_some h

private theorem start_of_name {first dir : String} {more rest : List String}
    (hfirst : first ∉ ["crate", "self", "super"])
    (h : importer.pathStart? (first :: more) = some (some (dir, rest))) :
    rest = first :: more ∧ (moduleFile? importer.index (Path.join dir first)).isSome = true := by
  simp only [List.mem_cons, List.not_mem_nil, or_false, not_or] at hfirst
  obtain ⟨hcrate, hself, hsuper⟩ := hfirst
  unfold pathStart? at h
  dsimp only at h
  split at h
  · rename_i hnames
    cases hnames
  · rename_i hnames
    exact absurd (List.cons.inj hnames).1 hcrate
  · rename_i hnames
    exact absurd (List.cons.inj hnames).1 hself
  · rename_i hnames
    exact absurd (List.cons.inj hnames).1 hsuper
  · rename_i hnames
    obtain ⟨rfl, rfl⟩ := List.cons.inj hnames
    split at h
    · rename_i hfile
      obtain ⟨rfl, rfl⟩ := Prod.mk.inj (Option.some.inj (Option.some.inj h))
      exact ⟨rfl, hfile⟩
    · split at h
      · rename_i hfile
        obtain ⟨rfl, rfl⟩ := Prod.mk.inj (Option.some.inj (Option.some.inj h))
        exact ⟨rfl, hfile⟩
      · cases h

private theorem singleton_mem_initialParts {α : Type} (first : α) (more : List α) :
    [first] ∈ initialParts 0 (first :: more) := by
  apply List.mem_map.mpr
  refine ⟨more.length, List.mem_range.mpr ?_, ?_⟩
  · rw [List.length_cons]
    omega
  · rw [List.length_cons, Nat.add_sub_cancel_left]
    rfl

private theorem moduleId_cases (index : RepoIndex) (dir : String) (names : List String) :
    index.contains (moduleId index dir names) = true ∨
      moduleId index dir names = Path.join dir ("/".intercalate names) ∧
        ∀ part ∈ initialParts 0 names,
          moduleFile? index (Path.join dir ("/".intercalate part)) = none := by
  rw [moduleId]
  dsimp only
  cases hfound : (initialParts 0 names).findSome? fun part =>
      moduleFile? index (Path.join dir ("/".intercalate part)) with
  | some file =>
    obtain ⟨part, -, hpart⟩ := List.exists_of_findSome?_eq_some hfound
    exact Or.inl (contains_of_moduleFile? hpart)
  | none => exact Or.inr ⟨rfl, List.findSome?_eq_none_iff.mp hfound⟩

private theorem origin_of_rust? (hlang : importer.language = .rust)
    (h : importer.rust? token = some (.internal id language)) : importer.Origin token id := by
  have hnames : ((splitOnText [':', ':'] token.toList).filter (!·.isEmpty)).map String.ofList =
      rustNames token := rfl
  unfold rust? at h
  dsimp only at h
  rw [hnames] at h
  split at h
  · cases h
  · rename_i hne
    split at h
    · cases h
    · exact absurd h external?_ne_internal
    · rename_i dir rest hstart
      obtain rfl := some_internal_eq h
      rcases moduleId_cases importer.index dir rest with hfile | ⟨hid, hnone⟩
      · exact .indexed (Or.inl hfile)
      · cases hnames : rustNames token with
        | nil => exact absurd (by rw [hnames]; rfl) hne
        | cons first more =>
          by_cases hfirst : first ∈ ["crate", "self", "super"]
          · rw [hid]
            exact .crateModule hlang hnames hfirst hstart
          · -- A path that starts with a name has a file, which no initial part would have missed.
            rw [hnames] at hstart
            obtain ⟨rfl, hsome⟩ := start_of_name hfirst hstart
            have hfirstNone := hnone [first] (singleton_mem_initialParts first more)
            rw [String.intercalate_singleton] at hfirstNone
            rw [hfirstNone] at hsome
            cases hsome

theorem climb?_induction {P : String → Prop} (hup : ∀ dir, P dir → P (Path.parent dir))
    {levels : Nat} {dir above : String} (h : P dir) (hclimb : climb? levels dir = some above) :
    P above := by
  induction levels generalizing dir with
  | zero =>
    rw [climb?, Option.some.injEq] at hclimb
    rwa [← hclimb]
  | succ levels ih =>
    rw [climb?] at hclimb
    split at hclimb
    · cases hclimb
    · exact ih (hup dir h) hclimb

private theorem climbSupers?_induction {P : String → Prop}
    (hup : ∀ dir, P dir → P (Path.parent dir))
    {names rest : List String} {dir above : String} (h : P dir)
    (hclimb : climbSupers? dir names = some (above, rest)) : P above ∧ rest ⊆ names := by
  induction names generalizing dir with
  | nil =>
    obtain ⟨rfl, rfl⟩ := Prod.mk.inj (Option.some.inj hclimb)
    exact ⟨h, List.Subset.refl []⟩
  | cons name names ih =>
    rw [climbSupers?] at hclimb
    split at hclimb
    · split at hclimb
      · cases hclimb
      · obtain ⟨habove, hrest⟩ := ih (hup dir h) hclimb
        exact ⟨habove, fun _ hmem => List.mem_cons_of_mem name (hrest hmem)⟩
    · obtain ⟨rfl, rfl⟩ := Prod.mk.inj (Option.some.inj hclimb)
      exact ⟨h, List.Subset.refl _⟩

/-- A Rust path starts in the directory of the file's own modules or above it, or above the file. -/
theorem pathStart?_induction {P : String → Prop} {names rest : List String} {dir : String}
    (h : importer.pathStart? names = some (some (dir, rest)))
    (hup : ∀ dir, P dir → P (Path.parent dir)) (hfile : P (Path.parent importer.file))
    (hchild : P (childDir importer.file)) : P dir ∧ rest ⊆ names := by
  have hroot : P (crateRoot importer.index importer.file) := by
    rw [crateRoot]
    cases hfound : (Path.ancestors (Path.parent importer.file)).find?
        (holdsCrate importer.index) with
    | none => exact hfile
    | some root =>
      exact Path.ancestors_induction hup hfile root (List.mem_of_find?_eq_some hfound)
  have started {start : String} {tail : List String} (hstart : P start) (htail : tail ⊆ names)
      (heq : some (some (start, tail)) = some (some (dir, rest))) : P dir ∧ rest ⊆ names := by
    obtain ⟨rfl, rfl⟩ := Prod.mk.inj (Option.some.inj (Option.some.inj heq))
    exact ⟨hstart, htail⟩
  unfold pathStart? at h
  dsimp only at h
  split at h
  · cases h
  · exact started hroot (List.subset_cons_self _ _) h
  · exact started hchild (List.subset_cons_self _ _) h
  · obtain ⟨⟨above, tail⟩, hclimb, heq⟩ := Option.map_eq_some_iff.mp h
    obtain ⟨rfl, rfl⟩ := Prod.mk.inj (Option.some.inj heq)
    exact climbSupers?_induction hup hchild hclimb
  · split at h
    · exact started hchild (List.Subset.refl _) h
    · split at h
      · exact started hroot (List.Subset.refl _) h
      · cases h

/-- Every module that a reference resolves to gets its id in one of the known ways. -/
theorem origin_of_target? (h : importer.target? token = some (.internal id language)) :
    importer.Origin token id := by
  unfold target? at h
  split at h
  case h_1 hlang => exact origin_of_python? hlang h
  case h_2 hlang => exact origin_of_script? (Or.inl hlang) h
  case h_3 hlang => exact origin_of_script? (Or.inr hlang) h
  case h_4 hlang => exact origin_of_go? hlang h
  case h_5 hlang => exact origin_of_jvm? (by rw [importsNames, hlang]) h
  case h_6 hlang => exact origin_of_jvm? (by rw [importsNames, hlang]) h
  case h_7 hlang => exact origin_of_cSharp? (by rw [importsNames, hlang]) h
  case h_8 hlang =>
    split at h
    · rename_i hkind
      exact origin_of_phpUse? (by rw [importsNames, hlang]; exact decide_eq_true hkind) h
    · rename_i hkind
      exact origin_of_phpInclude? hlang hkind h
  case h_9 hlang => exact origin_of_ruby? hlang h
  case h_10 hlang => exact origin_of_rust? hlang h
  case h_11 hlang => exact origin_of_cFamily? (Or.inl hlang) h
  case h_12 hlang => exact origin_of_cFamily? (Or.inr hlang) h

end Importer

/-- What a reference is resolved from: the token without blanks around it. -/
def Reference.written (reference : Reference) : String :=
  String.ofList (trim reference.token.toList)

/-- A reference that is not blank resolves by the rule of its file's language. -/
theorem RepoIndex.resolve?_eq_bind (index : RepoIndex) (reference : Reference) :
    index.resolve? reference = if reference.written.isEmpty = true then none
      else (index.importingLanguage? reference.fromFile).bind fun importing =>
        (Importer.target? ⟨index, reference.fromFile, importing, reference.kind⟩
          reference.written).filter (isElsewhere reference.fromFile) := rfl

theorem RepoIndex.resolve?_of_importing {index : RepoIndex} {reference : Reference}
    {importing : Language} (hwritten : reference.written.isEmpty = false)
    (himporting : index.importingLanguage? reference.fromFile = some importing) :
    index.resolve? reference =
      (Importer.target? ⟨index, reference.fromFile, importing, reference.kind⟩
        reference.written).filter (isElsewhere reference.fromFile) := by
  rw [resolve?_eq_bind, hwritten, if_neg Bool.false_ne_true, himporting, Option.bind_some]

theorem RepoIndex.resolve?_eq_some_iff {index : RepoIndex} {reference : Reference}
    {target : Target} :
    index.resolve? reference = some target ↔ reference.written.isEmpty = false ∧
      ∃ importing, index.importingLanguage? reference.fromFile = some importing ∧
        Importer.target? ⟨index, reference.fromFile, importing, reference.kind⟩ reference.written =
          some target ∧
        isElsewhere reference.fromFile target = true := by
  rw [resolve?_eq_bind]
  cases reference.written.isEmpty with
  | true => simp
  | false =>
    rw [if_neg Bool.false_ne_true, Option.bind_eq_some_iff]
    simp only [Option.filter_eq_some_iff, true_and]

/-- A module that a reference resolves to gets its id in one of the known ways, and is not the
root. -/
theorem RepoIndex.origin_of_resolve? {index : RepoIndex} {reference : Reference} {id : String}
    {language : Language} (h : index.resolve? reference = some (.internal id language)) :
    ∃ importing, index.importingLanguage? reference.fromFile = some importing ∧
      Importer.Origin ⟨index, reference.fromFile, importing, reference.kind⟩ reference.written id ∧
      id ≠ "" := by
  obtain ⟨-, importing, himporting, htarget, helse⟩ := resolve?_eq_some_iff.mp h
  refine ⟨importing, himporting, Importer.origin_of_target? htarget, ?_⟩
  rintro rfl
  simp [isElsewhere] at helse

end RepoGraph
