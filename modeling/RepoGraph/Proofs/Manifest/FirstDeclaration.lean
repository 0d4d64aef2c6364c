import RepoGraph.Proofs.Manifest.Declarations
import RepoGraph.Proofs.Resolve.Searches
import RepoGraph.Proofs.Text.ByteOrder
import RepoGraph.Proofs.Text.Sorting

/-!
# The first declaration of a package

The manifests that hold their declarations in sections are read section by section, and a section in
the order of its keys. Many keys can have one normal form. The version of a package is that of the
first entry whose key has the normal form of its name.
-/

namespace RepoGraph

open Text

inductive ManifestValue where
  | json (value : JsonValue)
  | toml (value : TomlValue)

/-- The sections with declarations, in the order in which they count, each as the path of keys that
leads to it. -/
def ManifestKind.sections : ManifestKind → List (List String)
  | packageJson =>
    [["dependencies"], ["peerDependencies"], ["optionalDependencies"], ["devDependencies"]]
  | composerJson => [["require"], ["require-dev"]]
  | cargoToml =>
    [["dependencies"], ["build-dependencies"], ["dev-dependencies"], ["workspace", "dependencies"]]
  | pyprojectToml | requirements | goMod | gemfile => []

/-- Where an entry stands: in which section, and under which key of it. -/
structure EntryPlace where
  position : Nat
  key : String

def EntryPlace.Precedes (a b : EntryPlace) : Prop :=
  a.position < b.position ∨ a.position = b.position ∧ bytes a.key < bytes b.key

def TomlValue.textAt? (key : String) (value : TomlValue) : Option String :=
  (value.get? key).bind text?

/-- The versions that entries of a `Cargo.toml` state. -/
inductive TomlValue.StatesVersion : TomlValue → String → Prop
  | text (version : String) : StatesVersion (.text version) version
  | version {entry : TomlValue} {version : String} (h : entry.textAt? "version" = some version) :
    StatesVersion entry version
  | path {entry : TomlValue} {path : String} (hversion : entry.textAt? "version" = none)
    (h : entry.textAt? "path" = some path) : StatesVersion entry ("path:" ++ path)
  | workspace {entry : TomlValue} (hversion : entry.textAt? "version" = none)
    (hpath : entry.textAt? "path" = none) (h : entry.get? "workspace" = some (.bool true)) :
    StatesVersion entry "workspace"
  | git {entry : TomlValue} {url : String} (hversion : entry.textAt? "version" = none)
    (hpath : entry.textAt? "path" = none) (hworkspace : entry.get? "workspace" ≠ some (.bool true))
    (h : entry.textAt? "git" = some url) : StatesVersion entry ("git:" ++ url)
  | any {entry : TomlValue} (htext : entry.text? = none) (hversion : entry.textAt? "version" = none)
    (hpath : entry.textAt? "path" = none) (hworkspace : entry.get? "workspace" ≠ some (.bool true))
    (hgit : entry.textAt? "git" = none) : StatesVersion entry "*"

namespace ManifestValue

def ofText? (kind : ManifestKind) (content : String) : Option ManifestValue :=
  match kind with
  | .packageJson | .composerJson => (JsonValue.parseStrict? content).map json
  | .cargoToml | .pyprojectToml => (TomlValue.parseWithTimes? content).map toml
  | .requirements | .goMod | .gemfile => none

/-- The value under a key; none of a value that is no object and no table. -/
def get? (key : String) : ManifestValue → Option ManifestValue
  | json value => (value.member? key).map json
  | toml value => (value.get? key).map toml

def at? (path : List String) (value : ManifestValue) : Option ManifestValue :=
  path.foldlM (fun value key => value.get? key) value

def entryAt? (kind : ManifestKind) (place : EntryPlace) (value : ManifestValue) :
    Option ManifestValue :=
  (kind.sections[place.position]?.bind fun path => value.at? path).bind (get? place.key)

/-- Whether an entry states a version. In JSON a text does, and all else states any version. -/
def States : ManifestValue → String → Prop
  | json entry, version => entry.text? = some version ∨ entry.text? = none ∧ version = "*"
  | toml entry, version => entry.StatesVersion version

/-- Whether an entry is the first one of a package: its key has the normal form of the name, and no
key of an entry before it has. -/
structure IsFirst (value : ManifestValue) (kind : ManifestKind) (package : String)
    (place : EntryPlace) (entry : ManifestValue) : Prop where
  entry_eq : value.entryAt? kind place = some entry
  key_eq : normalizePackageName place.key = normalizePackageName package
  first : ∀ other : EntryPlace, other.Precedes place → (value.entryAt? kind other).isSome = true →
    normalizePackageName other.key ≠ normalizePackageName package

def version : ManifestValue → String
  | json entry => entry.text?.getD Manifest.anyVersion
  | toml entry => Manifest.entryVersion entry

end ManifestValue

namespace TomlValue

private theorem bind_bool?_eq_some_iff {value : Option TomlValue} {b : Bool} :
    value.bind bool? = some b ↔ value = some (.bool b) := by
  rw [Option.bind_eq_some_iff]
  constructor
  · rintro ⟨v, rfl, hv⟩
    cases v with
    | bool b' => rw [Option.some.inj hv]
    | _ => cases hv
  · rintro rfl
    exact ⟨_, rfl, rfl⟩

private theorem text?_eq_none_of_get? {entry value : TomlValue} {key : String}
    (h : entry.get? key = some value) : entry.text? = none := by
  cases entry with
  | table entries => rfl
  | _ => cases h

private theorem text?_eq_none_of_textAt? {entry : TomlValue} {key text : String}
    (h : entry.textAt? key = some text) : entry.text? = none := by
  obtain ⟨value, hvalue, -⟩ := Option.bind_eq_some_iff.mp h
  exact text?_eq_none_of_get? hvalue

def stated? (entry : TomlValue) : Option String :=
  entry.text?.or ((entry.textAt? "version").or (((entry.textAt? "path").map ("path:" ++ ·)).or
    ((if (entry.get? "workspace").bind bool? = some true then some "workspace" else none).or
      ((entry.textAt? "git").map ("git:" ++ ·)))))

private theorem entryVersion_eq (entry : TomlValue) :
    Manifest.entryVersion entry = entry.stated?.getD "*" := by
  cases entry with
  | table entries =>
    rw [Manifest.entryVersion, stated?]
    dsimp only [textAt?, text?]
    cases ((table entries).get? "version").bind text? with
    | some version => rfl
    | none =>
      cases ((table entries).get? "path").bind text? with
      | some path => rfl
      | none =>
        rcases ((table entries).get? "workspace").bind bool? with _ | _ | _ <;>
          cases ((table entries).get? "git").bind text? <;> rfl
  | _ => rfl

private theorem statesVersion_entryVersion (entry : TomlValue) :
    entry.StatesVersion (Manifest.entryVersion entry) := by
  rw [entryVersion_eq, stated?]
  cases htext : entry.text? with
  | some version =>
    cases entry with
    | text content =>
      obtain rfl : content = version := Option.some.inj htext
      exact .text content
    | _ => cases htext
  | none =>
    cases hversion : entry.textAt? "version" with
    | some version => exact .version hversion
    | none =>
      cases hpath : entry.textAt? "path" with
      | some path => exact .path hversion hpath
      | none =>
        by_cases htrue : (entry.get? "workspace").bind bool? = some true
        · rw [if_pos htrue]
          exact .workspace hversion hpath (bind_bool?_eq_some_iff.mp htrue)
        · rw [if_neg htrue]
          have hworkspace := mt bind_bool?_eq_some_iff.mpr htrue
          cases hgit : entry.textAt? "git" with
          | some url => exact .git hversion hpath hworkspace hgit
          | none => exact .any htext hversion hpath hworkspace hgit

private theorem StatesVersion.eq {entry : TomlValue} {version : String}
    (h : entry.StatesVersion version) :
    Manifest.entryVersion entry = version := by
  rw [entryVersion_eq, stated?]
  cases h with
  | text version => rfl
  | version h => rw [text?_eq_none_of_textAt? h, h]; rfl
  | path hversion h => rw [text?_eq_none_of_textAt? h, hversion, h]; rfl
  | workspace hversion hpath h =>
    rw [text?_eq_none_of_get? h, hversion, hpath, if_pos (bind_bool?_eq_some_iff.mpr h)]
    rfl
  | git hversion hpath hworkspace h =>
    rw [text?_eq_none_of_textAt? h, hversion, hpath,
      if_neg (mt bind_bool?_eq_some_iff.mp hworkspace), h]
    rfl
  | any htext hversion hpath hworkspace hgit =>
    rw [htext, hversion, hpath, if_neg (mt bind_bool?_eq_some_iff.mp hworkspace), hgit]
    rfl

end TomlValue

namespace ManifestValue

private theorem states_iff {entry : ManifestValue} {version : String} :
    entry.States version ↔ entry.version = version := by
  cases entry with
  | json entry =>
    rw [States, ManifestValue.version]
    cases entry.text? with
    | some text => simp
    | none => simpa [Manifest.anyVersion] using eq_comm
  | toml entry =>
    constructor
    · exact TomlValue.StatesVersion.eq
    · rintro rfl
      exact entry.statesVersion_entryVersion

def sortedMembers : ManifestValue → List (String × ManifestValue)
  | json value => value.sortedMembers.map fun member => (member.1, json member.2)
  | toml value => value.sortedEntries.map fun entry => (entry.1, toml entry.2)

def declarations (value : ManifestValue) (path : List String) : List (String × String) :=
  (((value.at? path).map sortedMembers).getD []).map fun member => (member.1, member.2.version)

end ManifestValue

private theorem JsonValue.mem_memberNames_of_member? {value : JsonValue} {name : String}
    (h : (value.member? name).isSome = true) : name ∈ value.memberNames := by
  obtain ⟨found, hfound⟩ := Option.isSome_iff_exists.mp h
  have hmem := List.mem_of_getLast? hfound
  cases value with
  | object members =>
    obtain ⟨member, hmember, -⟩ := List.mem_map.mp hmem
    obtain ⟨hin, hname⟩ := List.mem_filter.mp hmember
    apply mem_eraseReps_of_mem
    rw [List.mem_mergeSort, List.mem_filterMap]
    exact ⟨member, hin, beq_iff_eq.mp hname⟩
  | _ => cases hmem

private theorem JsonValue.lookup_sortedMembers (value : JsonValue) (name : String) :
    value.sortedMembers.lookup name = value.member? name :=
  lookup_filterMap value.member? mem_memberNames_of_member?

private theorem JsonValue.pairwise_sortedMembers (value : JsonValue) :
    value.sortedMembers.Pairwise fun a b => a.1 ≤ b.1 := by
  have hnames : value.memberNames.Pairwise (· < ·) := by
    cases value with
    | object members => exact pairwise_lt_eraseReps (pairwise_mergeSort_text id _)
    | _ => exact List.Pairwise.nil
  refine List.Pairwise.filterMap _ ?_ hnames
  intro name name' hlt member hmember member' hmember'
  obtain ⟨found, -, rfl⟩ := Option.map_eq_some_iff.mp hmember
  obtain ⟨found', -, rfl⟩ := Option.map_eq_some_iff.mp hmember'
  exact Std.le_of_lt hlt

private theorem TomlValue.lookup_sortedEntries (value : TomlValue) (key : String) :
    value.sortedEntries.lookup key = value.get? key := by
  rw [sortedEntries, lookup_mergeSort]
  cases value <;> rfl

namespace ManifestValue

private theorem lookup_sortedMembers (value : ManifestValue) (key : String) :
    value.sortedMembers.lookup key = value.get? key := by
  cases value with
  | json value => rw [sortedMembers, lookup_map_snd, value.lookup_sortedMembers, get?]
  | toml value => rw [sortedMembers, lookup_map_snd, value.lookup_sortedEntries, get?]

private theorem pairwise_sortedMembers (value : ManifestValue) :
    value.sortedMembers.Pairwise fun a b => a.1 ≤ b.1 := by
  cases value with
  | json value => exact List.pairwise_map.mpr value.pairwise_sortedMembers
  | toml value => exact List.pairwise_map.mpr (pairwise_mergeSort_text Prod.fst _)

private theorem lookup_declarations (value : ManifestValue) (path : List String) (key : String) :
    (value.declarations path).lookup key = ((value.at? path).bind (get? key)).map version := by
  rw [declarations, lookup_map_snd]
  cases value.at? path with
  | none => rfl
  | some part => rw [Option.map_some, Option.getD_some, lookup_sortedMembers, Option.bind_some]

private theorem pairwise_declarations (value : ManifestValue) (path : List String) :
    (value.declarations path).Pairwise fun a b => a.1 ≤ b.1 := by
  apply List.pairwise_map.mpr
  cases value.at? path with
  | none => exact List.Pairwise.nil
  | some part => exact part.pairwise_sortedMembers

private theorem declarations_json (value : JsonValue) (name : String) :
    (json value).declarations [name] = Manifest.jsonSection value name := by
  have hat : (json value).at? [name] = (value.member? name).map json := by
    rw [at?, List.foldlM_cons, get?]
    cases value.member? name <;> rfl
  rw [declarations, hat, Manifest.jsonSection]
  cases value.member? name with
  | none => rfl
  | some part => exact List.map_map

private theorem at?_toml (value : TomlValue) (path : List String) :
    (toml value).at? path = (Manifest.tomlAt? value path).map toml := by
  induction path generalizing value with
  | nil => rfl
  | cons key path ih =>
    rw [at?, List.foldlM_cons, Manifest.tomlAt?, List.foldlM_cons, get?]
    cases value.get? key with
    | none => rfl
    | some part => exact ih part

private theorem declarations_toml (value : TomlValue) (path : List String) :
    (toml value).declarations path = Manifest.tomlSection (Manifest.tomlAt? value path) := by
  rw [declarations, at?_toml]
  cases Manifest.tomlAt? value path with
  | none => rfl
  | some part => exact List.map_map

private theorem map_version_entryAt? {value : ManifestValue} {kind : ManifestKind} {position : Nat}
    {path : List String} (hpath : kind.sections[position]? = some path) (key : String) :
    (value.entryAt? kind ⟨position, key⟩).map version = (value.declarations path).lookup key := by
  rw [lookup_declarations, entryAt?, hpath, Option.bind_some]

private theorem isSome_entryAt?_iff {value : ManifestValue} {kind : ManifestKind}
    {place : EntryPlace} :
    (value.entryAt? kind place).isSome = true ↔ ∃ path, kind.sections[place.position]? = some path ∧
      ((value.declarations path).lookup place.key).isSome = true := by
  cases hpath : kind.sections[place.position]? with
  | none => simp [entryAt?, hpath]
  | some path =>
    have hsome := congrArg Option.isSome (@map_version_entryAt? value _ _ _ hpath place.key)
    rw [Option.isSome_map] at hsome
    simp only [hsome, Option.some.injEq, exists_eq_left']

private theorem find?_declarations_eq_none_iff {value : ManifestValue} {kind : ManifestKind}
    {p : String → Bool} :
    (kind.sections.flatMap value.declarations).find? (fun declaration => p declaration.1) = none ↔
      ∀ place : EntryPlace, (value.entryAt? kind place).isSome = true → p place.key = false := by
  rw [List.find?_flatMap, List.findSome?_eq_none_iff]
  simp only [find?_key_eq_none_iff, isSome_entryAt?_iff]
  constructor
  · rintro h ⟨position, key⟩ ⟨path, hpath, hsome⟩
    exact h path (List.mem_of_getElem? hpath) key hsome
  · intro h path hmem key hsome
    obtain ⟨position, hpath⟩ := List.getElem?_of_mem hmem
    exact h ⟨position, key⟩ ⟨path, hpath, hsome⟩

/-- The first hit among the declarations of all sections is the entry with no hit at a place before
its own. -/
theorem find?_declarations_eq_some_iff {value : ManifestValue} {kind : ManifestKind}
    {p : String → Bool} {key found : String} :
    (kind.sections.flatMap value.declarations).find? (fun declaration => p declaration.1) =
        some (key, found) ↔
      ∃ position, (value.entryAt? kind ⟨position, key⟩).map version = some found ∧ p key = true ∧
        ∀ other : EntryPlace, other.Precedes ⟨position, key⟩ →
          (value.entryAt? kind other).isSome = true → p other.key = false := by
  rw [List.find?_flatMap, findSome?_eq_some_iff_getElem?]
  simp only [find?_key_eq_some_iff (value.pairwise_declarations _), find?_key_eq_none_iff]
  constructor
  · rintro ⟨position, path, hpath, ⟨hfound, hp, hsmaller⟩, hearlier⟩
    refine ⟨position, (map_version_entryAt? hpath key).trans hfound, hp, ?_⟩
    rintro ⟨position', key'⟩ hbefore hsome
    obtain ⟨path', hpath', hsome⟩ := isSome_entryAt?_iff.mp hsome
    rcases hbefore with hlt | ⟨heq, hlt⟩
    · exact hearlier position' hlt path' hpath' key' hsome
    · obtain rfl : position' = position := heq
      obtain rfl : path = path' := Option.some.inj (hpath.symm.trans hpath')
      exact hsmaller key' (lt_iff_bytes_lt.mpr hlt) hsome
  · rintro ⟨position, hfound, hp, hfirst⟩
    have hsome : (value.entryAt? kind ⟨position, key⟩).isSome = true := by
      rw [← Option.isSome_map, hfound, Option.isSome_some]
    obtain ⟨path, hpath, -⟩ := isSome_entryAt?_iff.mp hsome
    refine ⟨position, path, hpath, ⟨(map_version_entryAt? hpath key).symm.trans hfound, hp, ?_⟩, ?_⟩
    · intro smaller hlt hsome
      exact hfirst ⟨position, smaller⟩ (Or.inr ⟨rfl, lt_iff_bytes_lt.mp hlt⟩)
        (isSome_entryAt?_iff.mpr ⟨path, hpath, hsome⟩)
    · intro earlier hlt path' hpath' key' hsome
      exact hfirst ⟨earlier, key'⟩ (Or.inl hlt) (isSome_entryAt?_iff.mpr ⟨path', hpath', hsome⟩)

end ManifestValue

namespace Manifest

variable {manifest : Manifest} {path content package : String}

private theorem version?_declareAll (hkind : manifest.kind ≠ .goMod)
    (hempty : manifest.dependencies = [])
    (hname : normalizePackageName package ≠ "") (declarations : List (String × String)) :
    (manifest.declareAll declarations).version? package =
      (declarations.find? fun declaration =>
        normalizePackageName declaration.1 = normalizePackageName package).map (·.2) := by
  have hkey (name : String) : manifest.kind.key name = normalizePackageName name := by
    revert hkind
    cases manifest.kind with
    | goMod => exact fun hkind => absurd rfl hkind
    | _ => exact fun _ => rfl
  have hkind' : (manifest.declareAll declarations).kind = manifest.kind := by
    obtain ⟨dependencies, heq⟩ := manifest.declareAll_eq declarations
    rw [heq]
  rw [version?, hkind', if_neg hkind, Option.or_none, hkey, lookup_declareAll _ _ hname, hempty,
    List.lookup_nil, Option.none_or]
  simp only [hkey]

/-- The sections of a manifest are declared one after the other. -/
theorem version?_of_parse (h : parse path content = .ok manifest)
    (hkind : manifest.kind ∈ [.packageJson, .composerJson, .cargoToml])
    (hname : normalizePackageName package ≠ "") :
    ∃ value, ManifestValue.ofText? manifest.kind content = some value ∧
      manifest.version? package =
        ((manifest.kind.sections.flatMap value.declarations).find? fun declaration =>
          normalizePackageName declaration.1 = normalizePackageName package).map (·.2) := by
  obtain ⟨kind, hfile, hat⟩ := isAt_of_parse h
  rw [parse, hfile] at h
  dsimp only at h
  rw [hat.kind_eq] at hkind ⊢
  unfold read at h
  cases kind with
  | packageJson | composerJson =>
    dsimp only at h
    split at h <;> cases h
    rename_i value hvalue
    refine ⟨.json value, by rw [ManifestValue.ofText?, hvalue, Option.map_some], ?_⟩
    rw [ofJson, version?_declareAll (by intro heq; cases heq) rfl hname]
    simp only [ManifestKind.sections, npmSections, composerSections, List.flatMap_cons,
      List.flatMap_nil, ManifestValue.declarations_json]
  | cargoToml =>
    dsimp only at h
    split at h <;> cases h
    rename_i value hvalue
    refine ⟨.toml value, by rw [ManifestValue.ofText?, hvalue, Option.map_some], ?_⟩
    rw [ofCargo, version?_declareAll (by intro heq; cases heq) rfl hname]
    simp only [ManifestKind.sections, cargoSections, List.flatMap_cons, List.flatMap_nil,
      ManifestValue.declarations_toml]
  | _ => simp at hkind

/-- The version of a package is the one that the first entry of the name states, and there is none
exactly if no entry has the name. -/
theorem version?_iff_isFirst (h : parse path content = .ok manifest)
    (hkind : manifest.kind ∈ [.packageJson, .composerJson, .cargoToml])
    (hname : normalizePackageName package ≠ "") :
    ∃ value, ManifestValue.ofText? manifest.kind content = some value ∧
      (∀ version, manifest.version? package = some version ↔ ∃ place entry,
        value.IsFirst manifest.kind package place entry ∧ entry.States version) ∧
      (manifest.version? package = none ↔ ∀ place : EntryPlace,
        (value.entryAt? manifest.kind place).isSome = true →
          normalizePackageName place.key ≠ normalizePackageName package) := by
  obtain ⟨value, hvalue, hversion⟩ := version?_of_parse h hkind hname
  have hsome (key found : String) := @ManifestValue.find?_declarations_eq_some_iff value
    manifest.kind (fun key => normalizePackageName key = normalizePackageName package) key found
  have hnone := @ManifestValue.find?_declarations_eq_none_iff value
    manifest.kind fun key => normalizePackageName key = normalizePackageName package
  simp only [decide_eq_true_eq, decide_eq_false_iff_not] at hsome hnone
  refine ⟨value, hvalue, ?_, by rw [hversion, Option.map_eq_none_iff, hnone]⟩
  intro version
  rw [hversion, Option.map_eq_some_iff]
  constructor
  · rintro ⟨⟨key, found⟩, hfound, rfl⟩
    obtain ⟨position, hplace, hkey, hfirst⟩ := (hsome key found).mp hfound
    obtain ⟨entry, hentry, rfl⟩ := Option.map_eq_some_iff.mp hplace
    exact ⟨⟨position, key⟩, entry, ⟨hentry, hkey, hfirst⟩, ManifestValue.states_iff.mpr rfl⟩
  · rintro ⟨⟨position, key⟩, entry, hfirst, hstates⟩
    refine ⟨(key, version), (hsome key version).mpr ?_, rfl⟩
    refine ⟨position, ?_, hfirst.key_eq, hfirst.first⟩
    rw [hfirst.entry_eq, Option.map_some, ManifestValue.states_iff.mp hstates]

def namesakes : String :=
  "\x7b\"devDependencies\":\x7b\"b_x\":\"3\"\x7d," ++
    "\"dependencies\":\x7b\"b-x\":\x7b\x7d,\"B.x\":\"1\"\x7d\x7d"

def namesakeSection : JsonValue := .object [(some "b-x", .object []), (some "B.x", .ofString "1")]

def namesakeValue : JsonValue :=
  .object [(some "devDependencies", .object [(some "b_x", .ofString "3")]),
    (some "dependencies", namesakeSection)]

private theorem parseStrict?_namesakes : JsonValue.parseStrict? namesakes = some namesakeValue := by
  with_unfolding_all rfl

private theorem eq_or_eq_of_member?_namesakeSection {key : String}
    (h : (namesakeSection.member? key).isSome = true) : key = "b-x" ∨ key = "B.x" := by
  have hmem := mem_of_mem_eraseReps (JsonValue.mem_memberNames_of_member? h)
  rw [List.mem_mergeSort] at hmem
  simpa using hmem

/-- Dependencies count before those of development, and a capital letter before small ones. -/
theorem version?_iff_isFirst_namesakes :
    ∃ manifest, parse "package.json" namesakes = .ok manifest ∧
      manifest.kind ∈ [.packageJson, .composerJson, .cargoToml] ∧
      normalizePackageName "b.X" = "b_x" ∧ manifest.version? "b.X" = some "1" := by
  have hfile : ManifestKind.ofFileName? (Path.fileName "package.json") = some .packageJson := by
    decide
  obtain ⟨manifest, hparse⟩ : ∃ manifest, parse "package.json" namesakes = .ok manifest :=
    ⟨_, by rw [parse, hfile]; dsimp only; rw [read, parseStrict?_namesakes]⟩
  obtain ⟨kind, hkind, hat⟩ := isAt_of_parse hparse
  obtain rfl : kind = .packageJson := Option.some.inj (hkind.symm.trans hfile)
  have hmem : manifest.kind ∈ [.packageJson, .composerJson, .cargoToml] := by
    rw [hat.kind_eq]
    exact List.mem_cons_self
  have hname : normalizePackageName "b.X" = "b_x" := by decide +kernel
  obtain ⟨value, hvalue, hversion, -⟩ :=
    @version?_iff_isFirst manifest _ _ "b.X" hparse hmem (by rw [hname]; decide)
  rw [hat.kind_eq] at hvalue hversion
  rw [ManifestValue.ofText?, parseStrict?_namesakes] at hvalue
  obtain rfl := Option.some.inj hvalue
  refine ⟨manifest, hparse, hmem, hname, (hversion "1").mpr ⟨⟨0, "B.x"⟩, .json (.ofString "1"),
    ⟨rfl, by decide +kernel, ?_⟩, Or.inl rfl⟩⟩
  rintro ⟨position, key⟩ hbefore hsome -
  rcases hbefore with hlt | ⟨heq, hlt⟩
  · exact absurd hlt (Nat.not_lt_zero _)
  · obtain rfl : position = 0 := heq
    have hmember : (namesakeSection.member? key).isSome = true := by
      rwa [← Option.isSome_map (f := ManifestValue.json)]
    rcases eq_or_eq_of_member?_namesakeSection hmember with rfl | rfl
    · exact absurd hlt (by decide +kernel)
    · exact absurd hlt (by decide +kernel)

end Manifest

end RepoGraph
