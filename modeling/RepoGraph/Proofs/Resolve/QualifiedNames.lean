import RepoGraph.Proofs.Resolve.PackageRoots
import RepoGraph.Proofs.Resolve.RelativePaths
import RepoGraph.Proofs.Resolve.Searches
import RepoGraph.Proofs.Text.ByteOrder

/-!
# Qualified names

A qualified name is resolved by its longest part: the one that the path of a file ends in, or else
the one that is declared as a package or namespace. Parts are made of whole segments, and of the
files of one part the first in byte order is taken. A name without either leaves the repository.
-/

namespace RepoGraph

open Text

/-- Whether a path is another one, or ends in it behind a slash. -/
def EndsAt (suffix path : String) : Prop := path = suffix ∨ ∃ dir, path = dir ++ "/" ++ suffix

namespace RepoIndex

variable {index : RepoIndex} {suffix path : String}

/-- The path of the files that a part of a name means, slashes at its start aside. -/
def namedPath (part : List String) (extension : String) : String :=
  String.ofList (("/".intercalate part ++ extension).toList.dropWhile (· == '/'))

/-- Whether a path is the first of the files, by the bytes of the paths, that end in a path. -/
structure IsFirstAt (index : RepoIndex) (suffix path : String) : Prop where
  contains : index.contains path = true
  ends : EndsAt suffix path
  first : ∀ other, index.contains other = true → EndsAt suffix other → other ≠ path →
    bytes path < bytes other

/-- Whether a path is that of the file that a part of a name means: the first extension is taken in
which the path of any file ends. -/
def IsFileOf (index : RepoIndex) (extensions part : List String) (path : String) : Prop :=
  ∃ before extension after, extensions = before ++ extension :: after ∧
    (∀ earlier ∈ before, ∀ other, index.contains other = true →
      ¬ EndsAt (namedPath part earlier) other) ∧
    index.IsFirstAt (namedPath part extension) path

theorem isPathSuffix_iff : isPathSuffix suffix path = true ↔ EndsAt suffix path := by
  rw [isPathSuffix, Bool.or_eq_true, beq_iff_eq, endsWith_iff, EndsAt]
  refine or_congr_right ⟨?_, ?_⟩
  · rintro ⟨dir, hdir⟩
    refine ⟨String.ofList dir, ?_⟩
    apply String.toList_inj.mp
    rw [← hdir]
    simp
  · rintro ⟨dir, rfl⟩
    exact ⟨dir.toList, by simp⟩

/-- A search by suffix finds the first file that ends in the suffix. -/
theorem Reachable.findBySuffix?_eq_some_iff (h : index.Reachable) :
    index.findBySuffix? suffix = some path ↔
      index.IsFirstAt (String.ofList (suffix.toList.dropWhile (· == '/'))) path := by
  have hname {suffix other : String} (hends : EndsAt suffix other) :
      Path.fileName other = Path.fileName suffix :=
    fileName_of_isPathSuffix (isPathSuffix_iff.mpr hends)
  rw [findBySuffix?, find?_eq_some_iff_of_pairwise (fun _ _ => String.lt_asymm)
    (h.pairwise_named _), h.mem_named_iff, isPathSuffix_iff]
  constructor
  · rintro ⟨⟨hcontains, -⟩, hends, hfirst⟩
    refine ⟨hcontains, hends, ?_⟩
    intro other hother hendsOther hne
    rw [← lt_iff_bytes_lt]
    by_contra hlt
    have hbefore : other < path := Std.lt_of_le_of_ne (String.not_lt.mp hlt) hne
    have hmiss := hfirst other (h.mem_named_iff.mpr ⟨hother, hname hendsOther⟩) hbefore
    rw [isPathSuffix_iff.mpr hendsOther] at hmiss
    cases hmiss
  · rintro ⟨hcontains, hends, hfirst⟩
    refine ⟨⟨hcontains, hname hends⟩, hends, ?_⟩
    intro other hmem hbefore
    rw [← Bool.not_eq_true, isPathSuffix_iff]
    intro hendsOther
    have hne : other ≠ path := by
      rintro rfl
      exact String.lt_irrefl _ hbefore
    have hlt := lt_iff_bytes_lt.mpr (hfirst other (h.mem_named_iff.mp hmem).1 hendsOther hne)
    exact String.lt_asymm hlt hbefore

private theorem Reachable.findBySuffix?_eq_none_iff (h : index.Reachable) :
    index.findBySuffix? suffix = none ↔ ∀ path, index.contains path = true →
      ¬ EndsAt (String.ofList (suffix.toList.dropWhile (· == '/'))) path := by
  rw [← Option.not_isSome_iff_eq_none, h.isSome_findBySuffix?_iff, not_exists]
  simp only [not_and, isPathSuffix_iff]

theorem Reachable.findSome?_eq_some_iff (h : index.Reachable) {extensions part : List String} :
    (extensions.findSome? fun extension =>
      index.findBySuffix? ("/".intercalate part ++ extension)) = some path ↔
      index.IsFileOf extensions part path := by
  simp only [List.findSome?_eq_some_iff, h.findBySuffix?_eq_some_iff, h.findBySuffix?_eq_none_iff]
  constructor
  · rintro ⟨before, extension, after, rfl, hfound, hnone⟩
    exact ⟨before, extension, after, rfl, hnone, hfound⟩
  · rintro ⟨before, extension, after, rfl, hnone, hfound⟩
    exact ⟨before, extension, after, rfl, hfound, hnone⟩

end RepoIndex

section Parts

variable {α : Type} {shortest : Nat} {parts part : List α}

/-- The final parts of a list, longest first, down to `shortest` elements. -/
def finalParts (shortest : Nat) (parts : List α) : List (List α) :=
  (List.range (parts.length + 1 - shortest)).map parts.drop

private theorem mem_finalParts_iff :
    part ∈ finalParts shortest parts ↔ part <:+ parts ∧ shortest ≤ part.length := by
  rw [finalParts, List.mem_map]
  constructor
  · rintro ⟨skipped, hskipped, rfl⟩
    rw [List.mem_range] at hskipped
    refine ⟨List.drop_suffix _ _, ?_⟩
    rw [List.length_drop]
    omega
  · rintro ⟨hsuffix, hlength⟩
    have hle := hsuffix.length_le
    exact ⟨parts.length - part.length, List.mem_range.mpr (by omega),
      (List.suffix_iff_eq_drop.mp hsuffix).symm⟩

private theorem pairwise_finalParts :
    (finalParts shortest parts).Pairwise fun a b => b.length < a.length := by
  rw [finalParts, List.pairwise_map]
  apply List.pairwise_lt_range.imp_of_mem
  intro i j _ hj hlt
  rw [List.mem_range] at hj
  rw [List.length_drop, List.length_drop]
  omega

end Parts

namespace Language

/-- The segments of a qualified name. A star at the end of a Java name is none of them. -/
def nameSegments (language : Language) (token : String) : List String :=
  match language.family with
  | .java => pieces '.' (Importer.withoutStar token)
  | .php => pieces '\\' token
  | _ => pieces '.' token

def nameSeparator (language : Language) : String :=
  match language.family with
  | .php => "\\"
  | _ => "."

/-- Whether a part of a name may have a file. The name of a Java class may go on behind it, and the
name of a PHP class may have more in front of it than its path; two segments stay unless the name
has one. In C# only names count. -/
def IsFilePart (language : Language) (segments part : List String) : Prop :=
  match language.family with
  | .java => part <+: segments ∧ min 2 segments.length ≤ part.length
  | .php => part <:+ segments ∧ min 2 segments.length ≤ part.length
  | _ => False

end Language

namespace RepoIndex

variable {index : RepoIndex} {language : Language} {segments : List String} {path name : String}

/-- Whether a path is that of the file of the longest part of a name that has one. -/
def IsClassFile (index : RepoIndex) (language : Language) (segments : List String)
    (path : String) : Prop :=
  ∃ part, language.IsFilePart segments part ∧ index.IsFileOf language.sourceSuffixes part path ∧
    ∀ longer, language.IsFilePart segments longer → part.length < longer.length →
      ∀ other, ¬ index.IsFileOf language.sourceSuffixes longer other

/-- Whether a name is the longest declared one that a qualified name starts with. -/
def IsNamespace (index : RepoIndex) (separator : String) (segments : List String)
    (name : String) : Prop :=
  ∃ part, part <+: segments ∧ part ≠ [] ∧ name = separator.intercalate part ∧
    index.hasNamespace name = true ∧ ∀ longer, longer <+: segments →
      part.length < longer.length → index.hasNamespace (separator.intercalate longer) = false

/-- What a qualified name is resolved to. -/
inductive ResolvesByName (index : RepoIndex) (reference : Reference) (language : Language)
    (segments : List String) : Prop
  /-- The file of its longest part. -/
  | file {path : String} (found : index.IsClassFile language segments path)
      (denoted : index.Denotes reference path)
  /-- The longest declared name, if no part has a file. -/
  | declared {name : String}
      (noFile : ∀ part, language.IsFilePart segments part →
        ∀ path, ¬ index.IsFileOf language.sourceSuffixes part path)
      (found : index.IsNamespace language.nameSeparator segments name)
      (denoted : index.Denotes reference name)
  /-- A package, if there is neither. -/
  | outside {ecosystem : Ecosystem} {package : String} {importing : Language}
      (noFile : ∀ part, language.IsFilePart segments part →
        ∀ path, ¬ index.IsFileOf language.sourceSuffixes part path)
      (noName : ∀ part, part <+: segments → part ≠ [] →
        index.hasNamespace (language.nameSeparator.intercalate part) = false)
      (resolved : index.resolve? reference = some (.external ecosystem package importing))
  /-- Nothing, if there is neither and the name is an absolute path. -/
  | nothing {segment : String}
      (noFile : ∀ part, language.IsFilePart segments part →
        ∀ path, ¬ index.IsFileOf language.sourceSuffixes part path)
      (noName : ∀ part, part <+: segments → part ≠ [] →
        index.hasNamespace (language.nameSeparator.intercalate part) = false)
      (php : language.family = .php) (single : segments = [segment])
      (absolute : segment.toList.head? = some '/') (dropped : index.resolve? reference = none)

section Longest

variable {extensions : List String} {list : List (List String)} {IsPart : List String → Prop}

def longestFile? (index : RepoIndex) (extensions : List String) (parts : List (List String)) :
    Option String :=
  parts.findSome? fun part => extensions.findSome? fun extension =>
    index.findBySuffix? ("/".intercalate part ++ extension)

private theorem Reachable.longestFile?_eq_some_iff (h : index.Reachable)
    (hmem : ∀ part, part ∈ list ↔ IsPart part)
    (hordered : list.Pairwise fun a b => b.length < a.length) :
    index.longestFile? extensions list = some path ↔
      ∃ part, IsPart part ∧ index.IsFileOf extensions part path ∧
        ∀ longer, IsPart longer → part.length < longer.length →
          ∀ other, ¬ index.IsFileOf extensions longer other := by
  rw [longestFile?, findSome?_eq_some_iff_of_pairwise (fun _ _ => Nat.lt_asymm) hordered]
  simp only [hmem, h.findSome?_eq_some_iff, Option.eq_none_iff_forall_ne_some, ne_eq]

private theorem Reachable.longestFile?_eq_none_iff (h : index.Reachable)
    (hmem : ∀ part, part ∈ list ↔ IsPart part) :
    index.longestFile? extensions list = none ↔
      ∀ part, IsPart part → ∀ path, ¬ index.IsFileOf extensions part path := by
  rw [longestFile?, List.findSome?_eq_none_iff]
  simp only [hmem, Option.eq_none_iff_forall_ne_some, ne_eq, h.findSome?_eq_some_iff]

end Longest

end RepoIndex

namespace Importer

variable {importer : Importer} {separator : String} {segments : List String} {name path : String}

private theorem one_le_length_iff {part : List String} : 1 ≤ part.length ↔ part ≠ [] :=
  List.length_pos_iff

private theorem namespaceOf?_eq_some_iff : importer.namespaceOf? separator segments = some name ↔
    importer.index.IsNamespace separator segments name := by
  rw [namespaceOf?, List.find?_map, Option.map_eq_some_iff]
  simp only [find?_eq_some_iff_of_pairwise (fun _ _ => Nat.lt_asymm) pairwise_initialParts,
    mem_initialParts_iff, Function.comp_apply, one_le_length_iff]
  constructor
  · rintro ⟨part, ⟨⟨hinitial, hne⟩, hdeclared, hlonger⟩, rfl⟩
    refine ⟨part, hinitial, hne, rfl, hdeclared, ?_⟩
    intro longer hinitial' hlt
    have hne' : longer ≠ [] := List.length_pos_iff.mp (Nat.zero_lt_of_lt hlt)
    exact hlonger longer ⟨hinitial', hne'⟩ hlt
  · rintro ⟨part, hinitial, hne, rfl, hdeclared, hlonger⟩
    exact ⟨part, ⟨⟨hinitial, hne⟩, hdeclared, fun longer hmem => hlonger longer hmem.1⟩, rfl⟩

private theorem namespaceOf?_eq_none_iff : importer.namespaceOf? separator segments = none ↔
    ∀ part, part <+: segments → part ≠ [] →
      importer.index.hasNamespace (separator.intercalate part) = false := by
  rw [namespaceOf?, List.find?_eq_none]
  simp only [List.forall_mem_map, mem_initialParts_iff, Bool.not_eq_true, and_imp,
    one_le_length_iff]

private theorem classFile?_eq (index : RepoIndex) (hne : segments ≠ []) :
    classFile? index segments =
      index.longestFile? Language.java.sourceSuffixes
        (initialParts (min 2 segments.length) segments) := by
  have hshortest : (if segments.length > 1 then 2 else 1) = min 2 segments.length := by
    have hpos := List.length_pos_iff.mpr hne
    split <;> omega
  rw [classFile?, hshortest, RepoIndex.longestFile?]

private theorem phpClassFile?_eq (index : RepoIndex) (segments : List String) :
    phpClassFile? index segments =
      index.longestFile? Language.php.sourceSuffixes
        (finalParts (min 2 segments.length) segments) := by
  have hcount : segments.length - min segments.length 2 + 1 =
      segments.length + 1 - min 2 segments.length := by
    omega
  have hextension (part : List String) : (Language.php.sourceSuffixes.findSome? fun extension =>
      index.findBySuffix? ("/".intercalate part ++ extension)) =
        index.findBySuffix? ("/".intercalate part ++ ".php") := by
    rw [Language.sourceSuffixes, List.findSome?_cons]
    split
    · rename_i found hfound
      rw [hfound]
    · rename_i hnone
      rw [hnone, List.findSome?_nil]
  rw [phpClassFile?, hcount, RepoIndex.longestFile?, finalParts, List.findSome?_map]
  simp only [hextension]
  rfl

def nameFile? (importer : Importer) (segments : List String) : Option String :=
  match importer.language.family with
  | .java => classFile? importer.index segments
  | .php => phpClassFile? importer.index segments
  | _ => none

private theorem nameFile?_eq_some_iff (hindex : importer.index.Reachable) (hne : segments ≠ []) :
    importer.nameFile? segments = some path ↔
      importer.index.IsClassFile importer.language segments path := by
  rw [nameFile?, RepoIndex.IsClassFile]
  generalize importer.language = language
  cases language with
  | java | kotlin =>
    dsimp only [Language.family, Language.IsFilePart]
    rw [classFile?_eq _ hne]
    exact hindex.longestFile?_eq_some_iff (fun _ => mem_initialParts_iff) pairwise_initialParts
  | php =>
    dsimp only [Language.family, Language.IsFilePart]
    rw [phpClassFile?_eq]
    exact hindex.longestFile?_eq_some_iff (fun _ => mem_finalParts_iff) pairwise_finalParts
  | _ => simp [Language.family, Language.IsFilePart]

private theorem nameFile?_eq_none_iff (hindex : importer.index.Reachable) (hne : segments ≠ []) :
    importer.nameFile? segments = none ↔ ∀ part, importer.language.IsFilePart segments part →
      ∀ path, ¬ importer.index.IsFileOf importer.language.sourceSuffixes part path := by
  rw [nameFile?]
  generalize importer.language = language
  cases language with
  | java | kotlin =>
    dsimp only [Language.family, Language.IsFilePart]
    rw [classFile?_eq _ hne]
    exact hindex.longestFile?_eq_none_iff fun _ => mem_initialParts_iff
  | php =>
    dsimp only [Language.family, Language.IsFilePart]
    rw [phpClassFile?_eq]
    exact hindex.longestFile?_eq_none_iff fun _ => mem_finalParts_iff
  | _ => simp [Language.family, Language.IsFilePart]

private theorem exists_head?_of_pieces {sep : Char} {token : String} (h : "" ∉ pieces sep token) :
    ∃ c, token.toList.head? = some c ∧ c ≠ sep := by
  cases htoken : token.toList with
  | nil =>
    rw [pieces, htoken] at h
    exact absurd List.mem_cons_self h
  | cons c rest =>
    refine ⟨c, rfl, ?_⟩
    rintro rfl
    rw [pieces, htoken, splitOn_cons, if_pos rfl] at h
    exact absurd List.mem_cons_self h

private theorem dropWhile_of_pieces {sep : Char} {token : String} (h : "" ∉ pieces sep token) :
    token.toList.dropWhile (· == sep) = token.toList := by
  obtain ⟨c, hhead, hc⟩ := exists_head?_of_pieces h
  exact dropWhile_eq_of_head?_ne (hhead ▸ mt Option.some.inj hc)

private theorem pieces_ne_nil (sep : Char) (token : String) : pieces sep token ≠ [] := by
  rw [pieces]
  exact mt List.map_eq_nil_iff.mp (splitOn_ne_nil _ _)

/-- All languages that import names look for a file, then for a declared name. -/
theorem target?_of_importsNames {token : String} (hnames : importer.importsNames = true)
    (hsegments : "" ∉ importer.language.nameSegments token) :
    importer.target? token =
      (((importer.nameFile? (importer.language.nameSegments token)).or
        (importer.namespaceOf? importer.language.nameSeparator
          (importer.language.nameSegments token))).map importer.internal).or
        (importer.external? (importer.language.outsideName token)) := by
  obtain ⟨index, file, language, kind⟩ := importer
  cases language with
  | java | kotlin =>
    dsimp only [nameFile?, Language.nameSegments, Language.family, Language.nameSeparator,
      Language.outsideName, target?, jvm?]
    cases (classFile? index _).or _ with
    | some id => rw [Option.map_some, Option.some_or]
    | none => rw [Option.map_none, Option.none_or]
  | cSharp =>
    dsimp only [nameFile?, Language.nameSegments, Language.family, Language.nameSeparator,
      Language.outsideName, target?, cSharp?]
    rw [Option.none_or]
    cases namespaceOf? _ _ _ with
    | some id => rw [Option.map_some, Option.some_or]
    | none => rw [Option.map_none, Option.none_or]
  | php =>
    have huse : kind = .uses := of_decide_eq_true hnames
    have hbare := dropWhile_of_pieces hsegments
    have hfull : (pieces '\\' token).filter (· ≠ "") = pieces '\\' token := by
      rw [List.filter_eq_self]
      intro segment hmem
      rw [decide_eq_true_iff]
      rintro rfl
      exact hsegments hmem
    have hne : (pieces '\\' token).isEmpty = false :=
      List.isEmpty_eq_false_iff.mpr (pieces_ne_nil _ _)
    dsimp only [nameFile?, Language.nameSegments, Language.family, Language.nameSeparator,
      Language.outsideName, target?]
    rw [if_pos huse, phpUse?]
    simp only [hbare, String.ofList_toList, hfull, hne, Bool.false_eq_true, if_false]
    cases (phpClassFile? index _).or _ with
    | some id => rw [Option.map_some, Option.some_or]
    | none => rw [Option.map_none, Option.none_or]
  | _ => cases hnames

private theorem packageRoot_composer_eq_empty_iff {c : Char}
    (htrim : trim name.toList = name.toList) (hhead : name.toList.head? = some c) (hc : c ≠ '\\') :
    Ecosystem.composer.packageRoot name = "" ↔ c = '/' ∧ '\\' ∉ name.toList := by
  obtain ⟨rest, hrest⟩ := List.head?_eq_some_iff.mp hhead
  have hbare : name.toList.dropWhile (· == '\\') = name.toList :=
    dropWhile_eq_of_head?_ne (hhead ▸ mt Option.some.inj hc)
  rw [Ecosystem.packageRoot, Ecosystem.rootRule, htrim, RootRule.collapse, hbare,
    String.ofList_eq_empty_iff]
  split
  · rename_i hpath
    have hplain : '\\' ∉ name.toList := by simpa using hpath.2
    rw [and_iff_left hplain, hrest]
    by_cases hslash : c = '/'
    · simp [hslash]
    · simp [hslash]
  · rename_i hjoined
    have hmem : '\\' ∈ name.toList := by simpa using hjoined
    have hne : RootRule.firstPieces ['\\'] 2 (c :: rest) ≠ [] :=
      RootRule.firstPieces_ne_nil (by decide) hc
    rw [← hrest] at hne
    exact iff_of_false hne fun h => h.2 hmem

private theorem withoutStar_isPrefix (token : String) :
    (withoutStar token).toList <+: token.toList := by
  rw [withoutStar]
  cases hend : stripEnd? ".*".toList token.toList with
  | none => exact List.prefix_rfl
  | some front =>
    rw [Option.map_some, Option.getD_some, String.toList_ofList, stripEnd?_eq_some_iff.mp hend]
    exact List.prefix_append _ _

/-- A name whose segments are not empty belongs to a package, or is an absolute path in PHP. -/
theorem external?_of_importsNames {token : String} (hnames : importer.importsNames = true)
    (htrim : trim token.toList = token.toList)
    (hsegments : "" ∉ importer.language.nameSegments token) :
    (∃ ecosystem package, importer.external? (importer.language.outsideName token) =
      some (.external ecosystem package importer.language)) ∨
    (importer.language.family = .php ∧
      (∃ segment, importer.language.nameSegments token = [segment] ∧
        segment.toList.head? = some '/') ∧
      importer.external? (importer.language.outsideName token) = none) := by
  have hplain {c : Char} {name : String} (hname : name.toList <+: token.toList)
      (hhead : name.toList.head? = some c) : isBlank c = false := by
    apply head?_trim (s := token.toList)
    rw [htrim]
    exact head?_of_isPrefix hname hhead
  have hdotted {language : Language} {c : Char} {name : String}
      (hrule : language.rootRule name = .segments "." 2) (hname : name.toList <+: token.toList)
      (hhead : name.toList.head? = some c) (hc : c ≠ '.') :
      (Ecosystem.ofReference language name).packageRoot name ≠ "" :=
    Ecosystem.packageRoot_ne_empty ((Ecosystem.rootRule_ofReference language name).trans hrule) rfl
      (by decide) (by decide) hhead (hplain hname hhead) hc
  obtain ⟨index, file, language, kind⟩ := importer
  cases language with
  | java | kotlin =>
    obtain ⟨c, hhead, hc⟩ := exists_head?_of_pieces hsegments
    left
    exact ⟨_, _, external?_eq_some (hdotted rfl (withoutStar_isPrefix token) hhead hc)⟩
  | cSharp =>
    obtain ⟨c, hhead, hc⟩ := exists_head?_of_pieces hsegments
    left
    exact ⟨_, _, external?_eq_some (hdotted rfl List.prefix_rfl hhead hc)⟩
  | php =>
    obtain ⟨c, hhead, hc⟩ := exists_head?_of_pieces hsegments
    have houtside : Language.outsideName .php token = token :=
      (congrArg String.ofList (dropWhile_of_pieces hsegments)).trans String.ofList_toList
    dsimp only
    rw [houtside]
    by_cases hroot : Ecosystem.composer.packageRoot token = ""
    · obtain ⟨rfl, hplain⟩ := (packageRoot_composer_eq_empty_iff htrim hhead hc).mp hroot
      refine Or.inr ⟨rfl, ⟨token, ?_, hhead⟩, external?_eq_none hroot⟩
      change pieces '\\' token = [token]
      rw [pieces, splitOn_of_notMem hplain, List.map_singleton, String.ofList_toList]
    · exact Or.inl ⟨_, _, external?_eq_some hroot⟩
  | _ => cases hnames

end Importer

namespace RepoIndex

variable {index : RepoIndex} {reference : Reference} {language : Language}
  {segments : List String} {path : String}

private theorem ne_empty_of_endsAt {suffix : String} (hsuffix : suffix ≠ "")
    (h : EndsAt suffix path) :
    path ≠ "" := by
  rcases h with rfl | ⟨dir, rfl⟩
  · exact hsuffix
  · simp

private theorem IsClassFile.ne_empty (h : index.IsClassFile language segments path) :
    path ≠ "" := by
  obtain ⟨part, hpart, ⟨before, extension, after, hextensions, -, hfirst⟩, -⟩ := h
  have hdots : ∀ extension ∈ language.sourceSuffixes, '.' ∈ extension.toList := by
    cases language with
    | c | cpp => exact False.elim hpart
    | _ => decide
  have hdot : '.' ∈ extension.toList := hdots extension (hextensions ▸ by simp)
  refine ne_empty_of_endsAt ?_ hfirst.ends
  intro hempty
  rw [namedPath, String.ofList_eq_empty_iff, List.dropWhile_eq_nil_iff] at hempty
  have hslash := hempty '.' (by simp [hdot])
  cases hslash

private theorem IsNamespace.ne_empty {separator name : String} (hsegments : "" ∉ segments)
    (h : index.IsNamespace separator segments name) : name ≠ "" := by
  obtain ⟨part, hinitial, hpart, rfl, -, -⟩ := h
  exact Path.intercalate_ne_empty (fun hmem => hsegments (hinitial.subset hmem)) hpart

/-- A qualified name is resolved to the file of its longest part, or else to the longest declared
name, or else to a package, and a reference to its own file is dropped. -/
theorem resolvesByName (hindex : index.Reachable)
    (himporting : index.importingLanguage? reference.fromFile = some language)
    (hnames : Importer.importsNames ⟨index, reference.fromFile, language, reference.kind⟩ = true)
    (hsegments : "" ∉ language.nameSegments reference.written) :
    index.ResolvesByName reference language (language.nameSegments reference.written) := by
  have hwritten : reference.written.isEmpty = false := by
    rw [← Bool.not_eq_true, String.isEmpty_iff]
    intro hempty
    rw [hempty] at hsegments
    exact hsegments (by cases language <;> decide)
  have hne : language.nameSegments reference.written ≠ [] := by
    unfold Language.nameSegments
    split <;> exact Importer.pieces_ne_nil _ _
  have htrim : trim reference.written.toList = reference.written.toList := by
    rw [reference.trim_written, trim_trim]
  have htarget := Importer.target?_of_importsNames hnames hsegments
  cases hfile : Importer.nameFile? ⟨index, reference.fromFile, language, reference.kind⟩
      (language.nameSegments reference.written) with
  | some path =>
    have hclass := (Importer.nameFile?_eq_some_iff hindex hne).mp hfile
    refine .file hclass (denotes_of_target? hwritten himporting hclass.ne_empty ?_)
    rw [htarget, hfile, Option.some_or, Option.map_some, Option.some_or]
  | none =>
    have hnoFile := (Importer.nameFile?_eq_none_iff hindex hne).mp hfile
    cases hname : Importer.namespaceOf? ⟨index, reference.fromFile, language, reference.kind⟩
        language.nameSeparator (language.nameSegments reference.written) with
    | some name =>
      have hdeclared := Importer.namespaceOf?_eq_some_iff.mp hname
      refine .declared hnoFile hdeclared
        (denotes_of_target? hwritten himporting (hdeclared.ne_empty hsegments) ?_)
      rw [htarget, hfile, hname, Option.none_or, Option.map_some, Option.some_or]
    | none =>
      have hnoName := Importer.namespaceOf?_eq_none_iff.mp hname
      rw [hfile, hname, Option.none_or, Option.map_none, Option.none_or] at htarget
      rcases Importer.external?_of_importsNames hnames htrim hsegments with
        ⟨ecosystem, package, hout⟩ | ⟨hphp, ⟨segment, hsingle, hslash⟩, hnone⟩
      · have hresolved : index.resolve? reference = some (.external ecosystem package language) :=
          resolve?_eq_some_iff.mpr
            ⟨hwritten, language, himporting, htarget.trans hout, rfl⟩
        exact .outside hnoFile hnoName hresolved
      · refine .nothing hnoFile hnoName hphp hsingle hslash ?_
        rw [resolve?_of_importing hwritten himporting, htarget.trans hnone]
        rfl

private theorem resolve?_of_classFile? {file token : String}
    (himporting : index.importingLanguage? file = some .java)
    (htrim : (ofClass file token).written = token) (htoken : token.isEmpty = false)
    (hclass : Importer.classFile? index (pieces '.' (Importer.withoutStar token)) = some path)
    (hlanguage : index.language? path = some .java)
    (helse : isElsewhere file (.internal path .java) = true) :
    index.resolve? (ofClass file token) = some (.internal path .java) := by
  have hinternal (kind : ReferenceKind) :
      Importer.internal ⟨index, file, .java, kind⟩ path = .internal path .java := by
    rw [Importer.internal, hlanguage, Option.some_or, Option.getD_some]
  have htarget : Importer.jvm? ⟨index, file, .java, .imports⟩ token =
      some (.internal path .java) := by
    unfold Importer.jvm?
    dsimp only
    rw [hclass, Option.some_or]
    exact congrArg some (hinternal .imports)
  rw [resolve?_eq_some_iff, htrim]
  exact ⟨htoken, .java, himporting, htarget, helse⟩

def acme : RepoIndex :=
  (({} : RepoIndex).addFile "src/com/acme/Util.java" .java).addFile "lib/com/acme/Util.java" .java

private theorem reachable_acme : acme.Reachable := .addFile _ _ (.addFile _ _ .empty)

private theorem named_acme (name : String) :
    acme.named.getD name [] =
      if "Util.java" == name then ["lib/com/acme/Util.java", "src/com/acme/Util.java"] else [] := by
  have hfirst : Path.fileName "src/com/acme/Util.java" = "Util.java" := by decide
  have hsecond : Path.fileName "lib/com/acme/Util.java" = "Util.java" := by decide
  rw [acme, named_addFile, named_addFile, named_addFile, hfirst, hsecond, Std.HashMap.getD_empty,
    Std.HashMap.getD_empty]
  split
  · decide
  · rfl

private theorem language?_acme (path : String) :
    acme.language? path =
      if "lib/com/acme/Util.java" == path then some .java
      else if "src/com/acme/Util.java" == path then some .java else none := by
  rw [acme, language?_addFile, language?_addFile, language?, Std.HashMap.getElem?_empty]

private theorem importingLanguage?_acme : acme.importingLanguage? "Main.java" = some .java := by
  rw [importingLanguage?, language?_acme]
  decide

private theorem resolve?_acme :
    acme.resolve? (ofClass "Main.java" "com.acme.Util.parse") =
      some (.internal "lib/com/acme/Util.java" .java) := by
  have hparts : pieces '.' (Importer.withoutStar "com.acme.Util.parse") =
      ["com", "acme", "Util", "parse"] := by decide
  have hclass : Importer.classFile? acme ["com", "acme", "Util", "parse"] =
      some "lib/com/acme/Util.java" := by
    simp only [Importer.classFile?, findBySuffix?, named_acme]
    decide
  exact resolve?_of_classFile? importingLanguage?_acme (by decide) (by decide)
    (hparts.symm ▸ hclass) ((language?_acme _).trans (by decide)) (by decide)

/-- A method of the class, seen from another class. -/
theorem resolvesByName_acme :
    "" ∉ Language.java.nameSegments (ofClass "Main.java" "com.acme.Util.parse").written ∧
      acme.ResolvesByName (ofClass "Main.java" "com.acme.Util.parse") .java
        (Language.java.nameSegments (ofClass "Main.java" "com.acme.Util.parse").written) ∧
      acme.resolve? (ofClass "Main.java" "com.acme.Util.parse") =
        some (.internal "lib/com/acme/Util.java" .java) := by
  have hsegments :
      "" ∉ Language.java.nameSegments (ofClass "Main.java" "com.acme.Util.parse").written := by
    decide
  exact ⟨hsegments, resolvesByName reachable_acme importingLanguage?_acme rfl hsegments,
    resolve?_acme⟩

def shapes : RepoIndex := ({} : RepoIndex).addFile "a/b.java" .java

def ofPhp (token : String) : Reference := ⟨"b.php", token, .uses, 1⟩

private theorem contains_shapes (path : String) : shapes.contains path = ("a/b.java" == path) := by
  rw [shapes, contains_addFile, contains, Std.HashMap.contains_empty, Bool.or_false]

private theorem resolve?_shapes :
    shapes.resolve? (ofClass "A.java" "/a.b") = some (.internal "a/b.java" .java) := by
  have hlanguage (path : String) :
      shapes.language? path = if "a/b.java" == path then some .java else none := by
    rw [shapes, language?_addFile, language?, Std.HashMap.getElem?_empty]
  have hnamed (name : String) :
      shapes.named.getD name [] = if "b.java" == name then ["a/b.java"] else [] := by
    have hname : Path.fileName "a/b.java" = "b.java" := by decide
    rw [shapes, named_addFile, hname, Std.HashMap.getD_empty, Std.HashMap.getD_empty]
    rfl
  have hparts : pieces '.' (Importer.withoutStar "/a.b") = ["/a", "b"] := by decide
  have hclass : Importer.classFile? shapes ["/a", "b"] = some "a/b.java" := by
    simp only [Importer.classFile?, findBySuffix?, hnamed]
    decide
  have himporting : shapes.importingLanguage? "A.java" = some .java := by
    rw [importingLanguage?, hlanguage]
    decide
  exact resolve?_of_classFile? himporting (by decide) (by decide) (hparts.symm ▸ hclass)
    ((hlanguage _).trans (by decide)) (by decide)

private theorem resolve?_ofPhp : ({} : RepoIndex).resolve? (ofPhp "/a") = none := by
  have hwritten : (ofPhp "/a").written = "/a" := by decide
  have himporting : ({} : RepoIndex).importingLanguage? "b.php" = some .php :=
    (importingLanguage?_empty _).trans (by decide)
  have hnames : Importer.importsNames ⟨{}, "b.php", .php, .uses⟩ = true := by decide
  have htarget := Importer.target?_of_importsNames hnames (by decide : "" ∉ pieces '\\' "/a")
  have hfile : Importer.nameFile? ⟨{}, "b.php", .php, .uses⟩
      (Language.php.nameSegments "/a") = none := by
    rw [Importer.nameFile?_eq_none_iff .empty (by decide)]
    rintro part - path ⟨_, _, _, -, -, hfirst⟩
    have hcontains := hfirst.contains
    simp [contains] at hcontains
  have hname : Importer.namespaceOf? ⟨{}, "b.php", .php, .uses⟩ Language.php.nameSeparator
      (Language.php.nameSegments "/a") = none := by
    rw [Importer.namespaceOf?_eq_none_iff]
    simp [hasNamespace]
  have hout : Importer.external? ⟨{}, "b.php", .php, .uses⟩ (Language.php.outsideName "/a") =
      none :=
    Importer.external?_eq_none (by decide)
  rw [hfile, hname, Option.none_or, Option.map_none, Option.none_or] at htarget
  rw [resolve?_of_importing (hwritten ▸ by decide) himporting, hwritten]
  exact congrArg (Option.filter _) (htarget.trans hout)

/-- A slash at the start of a name is dropped before the files are searched: a Java name finds a
file that no part of it stands for as it is written, and a PHP name that is found nowhere leads
nowhere. -/
theorem leading_slash_is_dropped :
    (Language.java.nameSegments "/a.b" = ["/a", "b"] ∧
      (∀ part, part <+: ["/a", "b"] → part ≠ [] → ∀ extension ∈ Language.java.sourceSuffixes,
        ∀ path, shapes.contains path = true →
          ¬ EndsAt ("/".intercalate part ++ extension) path) ∧
      (∀ name, shapes.hasNamespace name = false) ∧
      shapes.resolve? (ofClass "A.java" "/a.b") = some (.internal "a/b.java" .java)) ∧
    (Language.php.nameSegments "/a" = ["/a"] ∧
      (∀ path, ({} : RepoIndex).contains path = false) ∧
      (∀ name, ({} : RepoIndex).hasNamespace name = false) ∧
      ({} : RepoIndex).resolve? (ofPhp "/a") = none) := by
  have hname (name : String) : ({} : RepoIndex).hasNamespace name = false := by
    simp [hasNamespace]
  have hfile (path : String) : ({} : RepoIndex).contains path = false := by
    simp [contains]
  refine ⟨⟨by decide, ?_, hname, resolve?_shapes⟩, by decide, hfile, hname, resolve?_ofPhp⟩
  intro part hinitial hpart extension hextension path hpath
  have hparts : ∀ part ∈ initialParts 1 ["/a", "b"],
      ∀ extension ∈ Language.java.sourceSuffixes,
        isPathSuffix ("/".intercalate part ++ extension) "a/b.java" = false := by decide
  rw [contains_shapes, beq_iff_eq] at hpath
  subst hpath
  rw [← isPathSuffix_iff, Bool.not_eq_true]
  exact hparts part (mem_initialParts_iff.mpr ⟨hinitial, List.length_pos_iff.mpr hpart⟩) extension
    hextension

end RepoIndex

end RepoGraph
