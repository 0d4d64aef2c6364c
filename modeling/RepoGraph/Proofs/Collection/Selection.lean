import RepoGraph.Proofs.Collection.Paths
import RepoGraph.Proofs.Text.ByteOrder
import RepoGraph.Proofs.Text.Pieces

/-!
# Which paths are selected

What makes a path eligible is said of each path alone, and what is sampled of each directory by the
eligible paths before it, so the paths that the collection walks through and counts are known
without the walk.
-/

namespace RepoGraph

open Text

/-- A path stands for a listed one: it has slashes for the backslashes, and every `./` in front is
taken off. -/
def IsCleanOf (listed path : String) : Prop :=
  (∃ n, listed.toList.map (fun c => if c = '\\' then '/' else c) =
      (List.replicate n ['.', '/']).flatten ++ path.toList) ∧
    ¬ ['.', '/'] <+: path.toList

private theorem skipHere_of_not_prefix {s : List Char} (h : ¬ ['.', '/'] <+: s) :
    Path.skipHere s = s := by
  unfold Path.skipHere
  split
  · exact absurd (List.prefix_append ['.', '/'] _) h
  · rfl

private theorem skipHere_replicate (n : Nat) (s : List Char) :
    Path.skipHere ((List.replicate n ['.', '/']).flatten ++ s) = Path.skipHere s := by
  induction n with
  | zero => rfl
  | succ n ih => exact ih

private theorem exists_replicate_skipHere (s : List Char) :
    (∃ n, s = (List.replicate n ['.', '/']).flatten ++ Path.skipHere s) ∧
      ¬ ['.', '/'] <+: Path.skipHere s := by
  fun_induction Path.skipHere s with
  | case1 s ih =>
    obtain ⟨⟨n, hn⟩, hprefix⟩ := ih
    refine ⟨⟨n + 1, ?_⟩, hprefix⟩
    rw [List.replicate_succ, List.flatten_cons, List.append_assoc, ← hn]
    rfl
  | case2 s hs =>
    refine ⟨⟨0, rfl⟩, ?_⟩
    rintro ⟨rest, hrest⟩
    exact hs rest hrest.symm

theorem isCleanOf_iff {listed path : String} : IsCleanOf listed path ↔ cleanPath listed = path := by
  have hslashes : listed.toList.map (fun c => if c == '\\' then '/' else c) =
      listed.toList.map (fun c => if c = '\\' then '/' else c) := by simp
  rw [cleanPath, hslashes, IsCleanOf]
  generalize listed.toList.map (fun c => if c = '\\' then '/' else c) = s
  constructor
  · rintro ⟨⟨n, rfl⟩, hprefix⟩
    rw [skipHere_replicate, skipHere_of_not_prefix hprefix, String.ofList_toList]
  · rintro rfl
    rw [String.toList_ofList]
    exact exists_replicate_skipHere s

theorem mem_cleanPaths {listing : List String} {path : String} :
    path ∈ cleanPaths listing ↔ ∃ listed ∈ listing, IsCleanOf listed path := by
  have hreps : path ∈ cleanPaths listing ↔ path ∈ (listing.map cleanPath).mergeSort :=
    ⟨mem_of_mem_eraseReps, mem_eraseReps_of_mem⟩
  rw [hreps, List.mem_mergeSort, List.mem_map]
  simp only [isCleanOf_iff]

theorem toOption_eq_some_iff {ε α : Type} {result : Except ε α} {a : α} :
    result.toOption = some a ↔ result = .ok a := by
  cases result <;> simp [Except.toOption]

namespace CollectionRules

def validGlobs (rules : CollectionRules) : List Glob :=
  rules.excludePatterns.filterMap fun pattern => (Glob.parse {} pattern).toOption

/-- A path that the rules leave out: a directory on it is excluded by name, or one of the valid
patterns matches it and they can be used together. -/
def LeavesOut (rules : CollectionRules) (path : String) : Prop :=
  (∃ dir ∈ (Path.segments path).dropLast, dir ∈ rules.excludeDirs) ∨
    Glob.areUsable rules.validGlobs = true ∧
      ∃ pattern ∈ rules.excludePatterns, ∃ glob, Glob.parse {} pattern = .ok glob ∧
        glob.isMatch path = true

theorem mem_validGlobs {rules : CollectionRules} {glob : Glob} :
    glob ∈ rules.validGlobs ↔ ∃ pattern ∈ rules.excludePatterns, Glob.parse {} pattern = .ok glob := by
  simp only [validGlobs, List.mem_filterMap, toOption_eq_some_iff]

theorem excludes_iff {rules : CollectionRules} {path : String} :
    rules.excludes rules.globs path = true ↔ rules.LeavesOut path := by
  have hglobs : rules.globs.any (·.isMatch path) = true ↔
      Glob.areUsable rules.validGlobs = true ∧
        ∃ pattern ∈ rules.excludePatterns, ∃ glob, Glob.parse {} pattern = .ok glob ∧
          glob.isMatch path = true := by
    have hin : rules.globs = if Glob.areUsable rules.validGlobs then rules.validGlobs else [] := rfl
    rw [hin]
    by_cases h : Glob.areUsable rules.validGlobs = true
    · simp only [h, if_true, true_and, List.any_eq_true, mem_validGlobs]
      constructor
      · rintro ⟨glob, ⟨pattern, hpattern, hparse⟩, hmatch⟩
        exact ⟨pattern, hpattern, glob, hparse, hmatch⟩
      · rintro ⟨pattern, hpattern, glob, hparse, hmatch⟩
        exact ⟨glob, ⟨pattern, hpattern, hparse⟩, hmatch⟩
    · simp [h]
  rw [excludes, Bool.or_eq_true, hglobs, LeavesOut]
  simp only [List.any_eq_true, List.contains_iff_mem]

end CollectionRules

namespace RepoTree

/-- A path is a source of a language: it is kept, is no manifest, is neither binary nor minified,
and its extension tells the language or, if its name has no dot, the first line does. -/
structure Eligible (tree : RepoTree) (rules : CollectionRules) (path : String)
    (language : Language) : Prop where
  kept : ¬ rules.LeavesOut path
  notManifest : ManifestKind.ofFileName? (Path.fileName path) = none
  notBinary : hasBinaryExtension (Path.fileName path) = false
  notMinified : ¬ ".min.js".toList <:+ (Path.fileName path).toList
  speaks : Language.ofPath? path = some language ∨
    Language.ofPath? path = none ∧ '.' ∉ (Path.fileName path).toList ∧
      ∃ line, tree.firstLine path = .ok line ∧ Language.ofShebang? line = some language

private theorem language?_eq_some_iff {tree : RepoTree} {path : String} {language : Language} :
    tree.language? path = some language ↔ Language.ofPath? path = some language ∨
      Language.ofPath? path = none ∧
        ∃ line, tree.firstLine path = .ok line ∧ Language.ofShebang? line = some language := by
  rw [language?, Option.or_eq_some_iff]
  cases tree.firstLine path <;> simp

private theorem mayBeSource_iff {path : String} :
    mayBeSource path = true ↔ ManifestKind.ofFileName? (Path.fileName path) = none ∧
      hasBinaryExtension (Path.fileName path) = false ∧
      ¬ ".min.js".toList <:+ (Path.fileName path).toList ∧
      (Language.ofPath? path ≠ none ∨ '.' ∉ (Path.fileName path).toList) := by
  rw [← endsWith_iff]
  simp [mayBeSource, isManifestPath, Option.isSome_iff_ne_none, and_assoc]

theorem mem_candidates {tree : RepoTree} {rules : CollectionRules} {paths : List String}
    {path : String} {language : Language} :
    (path, language) ∈ tree.candidates rules paths ↔
      path ∈ paths ∧ tree.Eligible rules path language := by
  have hmem : (path, language) ∈ tree.candidates rules paths ↔
      ((path ∈ paths ∧ ¬ rules.LeavesOut path) ∧ mayBeSource path = true) ∧
        tree.language? path = some language := by
    rw [← CollectionRules.excludes_iff]
    simp only [candidates, List.mem_filterMap, List.mem_filter, Option.map_eq_some_iff,
      Prod.mk.injEq, Bool.not_eq_true', Bool.not_eq_true]
    constructor
    · rintro ⟨other, hother, found, hfound, rfl, rfl⟩
      exact ⟨hother, hfound⟩
    · rintro ⟨hpath, hlanguage⟩
      exact ⟨path, hpath, language, hlanguage, rfl, rfl⟩
  rw [hmem, mayBeSource_iff, language?_eq_some_iff]
  constructor
  · rintro ⟨⟨⟨hpath, hkept⟩, hmanifest, hbinary, hminified, hname⟩, hspeaks⟩
    refine ⟨hpath, hkept, hmanifest, hbinary, hminified, ?_⟩
    rcases hspeaks with hext | ⟨hnone, hline⟩
    · exact Or.inl hext
    · exact Or.inr ⟨hnone, hname.resolve_left (fun h => h hnone), hline⟩
  · rintro ⟨hpath, hkept, hmanifest, hbinary, hminified, hspeaks⟩
    refine ⟨⟨⟨hpath, hkept⟩, hmanifest, hbinary, hminified, ?_⟩, ?_⟩
    · rcases hspeaks with hext | ⟨-, hdot, -⟩
      · exact Or.inl (by rw [hext]; exact Option.some_ne_none _)
      · exact Or.inr hdot
    · exact hspeaks.imp_right fun h => ⟨h.1, h.2.2⟩

end RepoTree

/-- The candidates with fewer than `cap` candidates of their directory before them. -/
def firstOfEachDir (cap : Nat) (candidates : List (String × Language)) :
    List (String × Language) :=
  candidates.filter fun c =>
    candidates.countP (fun d => bytes d.1 < bytes c.1 ∧ Path.parent d.1 = Path.parent c.1) < cap

/-- The candidates within the bounds on the files of a directory and of the whole. -/
def CollectionRules.quota (rules : CollectionRules) (candidates : List (String × Language)) :
    List (String × Language) :=
  (match rules.maxFilesPerDir with
    | some cap => firstOfEachDir cap.toNat candidates
    | none => candidates).take rules.maxFiles.toNat

private theorem countP_before {done rest : List (String × Language)} {c : String × Language}
    (h : ((done ++ c :: rest).map (·.1)).Pairwise (· < ·)) :
    (done ++ c :: rest).countP
        (fun d => bytes d.1 < bytes c.1 ∧ Path.parent d.1 = Path.parent c.1) =
      done.countP (fun d => Path.parent d.1 = Path.parent c.1) := by
  rw [List.map_append, List.map_cons, List.pairwise_append, List.pairwise_cons] at h
  obtain ⟨-, ⟨hrest, -⟩, hdone⟩ := h
  simp only [← lt_iff_bytes_lt]
  have hbefore : ∀ d ∈ done, d.1 < c.1 := fun d hd =>
    hdone d.1 (List.mem_map_of_mem hd) c.1 List.mem_cons_self
  have hafter : ∀ d ∈ c :: rest, ¬ d.1 < c.1 := by
    intro d hd
    rcases List.mem_cons.mp hd with rfl | hd
    · exact String.lt_irrefl _
    · exact String.lt_asymm (hrest d.1 (List.mem_map_of_mem hd))
  have hnone : (c :: rest).countP
      (fun d => d.1 < c.1 ∧ Path.parent d.1 = Path.parent c.1) = 0 := by
    rw [List.countP_eq_zero]
    intro d hd
    simp [hafter d hd]
  rw [List.countP_append, hnone, Nat.add_zero]
  apply List.countP_congr
  intro d hd
  simp [hbefore d hd]

/-- Sampling goes on from counts that hold, up to the cap, how many candidates of each directory
there were before. -/
theorem sampleFrom_eq_filter (cap : Nat) (done rest : List (String × Language))
    (counts : Std.HashMap String Nat) (h : ((done ++ rest).map (·.1)).Pairwise (· < ·))
    (hcounts : ∀ dir, counts.getD dir 0 = min cap (done.countP fun d => Path.parent d.1 = dir)) :
    sampleFrom cap counts rest = rest.filter fun c =>
      (done ++ rest).countP
        (fun d => bytes d.1 < bytes c.1 ∧ Path.parent d.1 = Path.parent c.1) < cap := by
  -- The candidates already passed are carried along: the whole list stays the same, and the counts
  -- stay below the cap while the candidates of a directory go on.
  induction rest generalizing done counts with
  | nil => rfl
  | cons c rest ih =>
    have hbefore := countP_before h
    have hcount := hcounts (Path.parent c.1)
    rw [List.append_cons] at h
    have hstep : ∀ dir, (done ++ [c]).countP (fun d => Path.parent d.1 = dir) =
        done.countP (fun d => Path.parent d.1 = dir) + if Path.parent c.1 = dir then 1 else 0 := by
      intro dir
      rw [List.countP_append, List.countP_singleton]
      simp only [decide_eq_true_eq]
    rw [sampleFrom, List.filter_cons, hbefore]
    by_cases hlt : done.countP (fun d => Path.parent d.1 = Path.parent c.1) < cap
    · have hcounts' : ∀ dir,
          (counts.insert (Path.parent c.1) (counts.getD (Path.parent c.1) 0 + 1)).getD dir 0 =
            min cap ((done ++ [c]).countP fun d => Path.parent d.1 = dir) := by
        intro dir
        rw [Std.HashMap.getD_insert, hstep]
        by_cases hdir : Path.parent c.1 = dir
        · subst hdir
          simp only [beq_self_eq_true, if_true]
          omega
        · simp only [beq_eq_false_iff_ne.mpr hdir, hdir, if_false, hcounts dir]
          rfl
      have hcap : counts.getD (Path.parent c.1) 0 < cap := by omega
      rw [if_pos hcap, ih (done ++ [c]) _ h hcounts', if_pos (decide_eq_true hlt),
        ← List.append_cons]
    · have hcounts' : ∀ dir, counts.getD dir 0 =
          min cap ((done ++ [c]).countP fun d => Path.parent d.1 = dir) := by
        intro dir
        rw [hstep, hcounts dir]
        by_cases hdir : Path.parent c.1 = dir
        · subst hdir
          simp only [if_true]
          omega
        · simp only [hdir, if_false]
          rfl
      have hcap : ¬ counts.getD (Path.parent c.1) 0 < cap := by omega
      rw [if_neg hcap, ih (done ++ [c]) _ h hcounts', if_neg (by simpa using hlt),
        ← List.append_cons]

theorem CollectionRules.select_eq_quota (rules : CollectionRules)
    {candidates : List (String × Language)} (h : (candidates.map (·.1)).Pairwise (· < ·)) :
    rules.select candidates = rules.quota candidates := by
  have hempty : ∀ dir : String, ∀ cap : Nat, ({} : Std.HashMap String Nat).getD dir 0 =
      min cap (([] : List (String × Language)).countP fun d => Path.parent d.1 = dir) := by
    simp
  unfold select quota
  cases rules.maxFilesPerDir with
  | none => rfl
  | some cap =>
    dsimp only
    rw [sampleFrom_eq_filter cap.toNat [] candidates {} h (fun dir => hempty dir cap.toNat)]
    rfl

end RepoGraph
