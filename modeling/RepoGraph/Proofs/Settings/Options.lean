import RepoGraph.Proofs.Settings.Loading

/-!
# Settings and options

Settings are checked before they become options, and options before an analysis runs. The second
check finds nothing that the first one lets pass, but for the patterns, at which the first one does
not look.
-/

namespace RepoGraph

namespace Settings

/-- Settings in which every number and every name is in range. -/
structure InRange (settings : Settings) : Prop where
  maxFiles : 1 ≤ settings.analysis.maxFiles ∧ settings.analysis.maxFiles.toNat ≤ maxFilesLimit
  maxFileSize : settings.analysis.maxFileSizeKb ≠ 0
  nodeCap : minNodeCap ≤ settings.graph.nodeCap.toNat
  minWeight : settings.graph.minWeight ≠ 0
  maxEdges : settings.graph.maxEdges ≠ 0
  language : ∃ filter, settings.filter = .ok filter
  level : settings.namesLevel = true

private theorem InRange.not_maxFiles {settings : Settings} (h : settings.InRange) :
    ¬ (settings.analysis.maxFiles < 1 ∨ maxFilesLimit < settings.analysis.maxFiles.toNat) :=
  not_or.mpr ⟨UInt64.not_lt.mpr h.maxFiles.1, Nat.not_lt.mpr h.maxFiles.2⟩

private theorem fault?_eq_none_iff {settings : Settings} :
    settings.fault? = none ↔ settings.InRange := by
  constructor
  · intro h
    unfold fault? at h
    split at h
    · cases h
    rename_i hmaxFiles
    split at h
    · cases h
    rename_i hmaxFileSize
    split at h
    · cases h
    rename_i hnodeCap
    split at h
    · cases h
    rename_i hminWeight
    split at h
    · cases h
    rename_i hmaxEdges
    split at h
    · cases h
    rename_i filter hfilter
    split at h
    · rename_i hlevel
      obtain ⟨hpos, hle⟩ := not_or.mp hmaxFiles
      exact ⟨⟨UInt64.not_lt.mp hpos, Nat.not_lt.mp hle⟩, hmaxFileSize, Nat.not_lt.mp hnodeCap,
        hminWeight, hmaxEdges, ⟨filter, hfilter⟩, hlevel⟩
    · cases h
  · intro h
    obtain ⟨filter, hfilter⟩ := h.language
    rw [fault?, if_neg h.not_maxFiles, if_neg h.maxFileSize, if_neg (Nat.not_lt.mpr h.nodeCap),
      if_neg h.minWeight, if_neg h.maxEdges, hfilter]
    exact if_pos h.level

theorem checked_eq_ok_iff {settings accepted : Settings} :
    settings.checked = .ok accepted ↔ settings.fault? = none ∧ settings = accepted := by
  rw [checked]
  cases settings.fault? with
  | some fault => simp
  | none => simp

private theorem boundOf_ne_some_zero (n : UInt64) : boundOf n ≠ some 0 := by
  rw [boundOf]
  split
  · intro h
    cases h
  · rename_i hn
    intro h
    exact hn (Option.some.inj h)

/-- Options that settings in range describe are in range but for the patterns. -/
theorem InRange.options {settings : Settings} (h : settings.InRange) :
    ∃ options, settings.options = .ok options ∧
      options.error? =
        (firstGlobError? settings.analysis.excludePatterns).map .excludePattern := by
  obtain ⟨filter, hfilter⟩ := h.language
  have hoptions : ∃ options, settings.options = .ok options ∧
      options = AnalysisOptions.mk settings.analysis.maxFiles filter settings.graph.minWeight
        settings.graph.nodeCap settings.graph.maxEdges (boundOf settings.analysis.maxFilesPerDir)
        settings.analysis.excludePatterns (boundOf settings.analysis.parallelism)
        settings.analysis.maxFileSizeKb := by
    refine ⟨_, ?_, rfl⟩
    rw [Settings.options, fault?_eq_none_iff.mpr h, hfilter]
    rfl
  obtain ⟨options, hok, rfl⟩ := hoptions
  refine ⟨_, hok, ?_⟩
  have hminWeight : ¬ settings.graph.minWeight < 1 := by
    have := h.minWeight
    simpa [UInt32.lt_one_iff] using this
  rw [AnalysisOptions.error?, if_neg h.not_maxFiles, if_neg hminWeight,
    if_neg (Nat.not_lt.mpr h.nodeCap), if_neg h.maxEdges,
    if_neg (boundOf_ne_some_zero settings.analysis.maxFilesPerDir),
    if_neg (boundOf_ne_some_zero settings.analysis.parallelism), if_neg h.maxFileSize]

private theorem fault?_of_load {loader : SettingsLoader} {store : FileStore} {root : Option String}
    {given : Overrides} {settings : Settings}
    (h : (loader.load store root given).2 = .ok settings) : settings.fault? = none := by
  rw [SettingsLoader.load_eq] at h
  dsimp only at h
  unfold SettingsLoader.outcome at h
  split at h
  · cases h
  · cases h
  · obtain ⟨hfault, rfl⟩ := checked_eq_ok_iff.mp h
    exact hfault

end Settings

private theorem RepoTree.graph_eq_option_error_iff {tree : RepoTree} {options : AnalysisOptions}
    {error : OptionError} :
    tree.graph options = .error (.option error) ↔ options.error? = some error := by
  rw [RepoTree.graph]
  cases options.error? with
  | some found => simp
  | none =>
    cases tree.collect options.collectionRules with
    | ok collection => simp
    | error found => simp

namespace Settings

/-- Settings in range, as all that a loader accepts are, give options that are refused just where a
pattern is no glob. So an analysis under such settings may still refuse a pattern, and nothing
else. -/
theorem refuses_only_patterns (settings : Settings) :
    (∀ (loader : SettingsLoader) (store : FileStore) (root : Option String) (given : Overrides),
      (loader.load store root given).2 = .ok settings → settings.fault? = none) ∧
    (settings.fault? = none → ∃ options, settings.options = .ok options ∧
      options.error? = (firstGlobError? settings.analysis.excludePatterns).map .excludePattern ∧
      ∀ (tree : RepoTree) (error : OptionError),
        tree.graph options = .error (.option error) ↔
          ∃ fault, firstGlobError? settings.analysis.excludePatterns = some fault ∧
            error = .excludePattern fault) := by
  constructor
  · intro loader store root given h
    exact fault?_of_load h
  · intro h
    obtain ⟨options, hok, herror⟩ := (fault?_eq_none_iff.mp h).options
    refine ⟨options, hok, herror, ?_⟩
    intro tree error
    rw [RepoTree.graph_eq_option_error_iff, herror, Option.map_eq_some_iff]
    simp only [eq_comm]

private theorem load_patterns (patterns : List String) :
    ((SettingsLoader.ofHome none).load {} none { excludePatterns := patterns }).2 =
      checked { analysis := { excludePatterns := appendNew [] patterns } } := by
  have hlayers : SettingsLoader.layered none none = {} := by decide
  rw [SettingsLoader.load_eq]
  change ((SettingsLoader.layered none none).override { excludePatterns := patterns }).checked = _
  rw [hlayers]
  rfl

def docsAside : Settings where
  analysis := { excludePatterns := ["docs/**", "**/[a-z]*.ts"] }

theorem refuses_only_patterns_docsAside :
    ((SettingsLoader.ofHome none).load {} none
        { excludePatterns := docsAside.analysis.excludePatterns }).2 = .ok docsAside ∧
      docsAside.fault? = none ∧
      ∃ options, docsAside.options = .ok options ∧ options.error? = none ∧
        ∀ (tree : RepoTree) (error : OptionError), tree.graph options ≠ .error (.option error) := by
  have hload : ((SettingsLoader.ofHome none).load {} none
      { excludePatterns := docsAside.analysis.excludePatterns }).2 = .ok docsAside :=
    (load_patterns _).trans (checked_eq_ok_iff.mpr ⟨by decide +kernel, rfl⟩)
  have hfault : docsAside.fault? = none := (refuses_only_patterns docsAside).1 _ _ _ _ hload
  have hpatterns : firstGlobError? docsAside.analysis.excludePatterns = none := by decide +kernel
  obtain ⟨options, hok, herror, hrefuse⟩ := (refuses_only_patterns docsAside).2 hfault
  refine ⟨hload, hfault, options, hok, ?_, ?_⟩
  · rw [herror, hpatterns]
    rfl
  · intro tree error hgraph
    obtain ⟨fault, hfound, -⟩ := (hrefuse tree error).mp hgraph
    rw [hpatterns] at hfound
    cases hfound

def openClass : Settings where
  analysis := { excludePatterns := ["["] }

/-- Settings can be in range, be accepted by a loader, and still be refused by every analysis. -/
theorem openClass_refused :
    openClass.fault? = none ∧
      ((SettingsLoader.ofHome none).load {} none { excludePatterns := ["["] }).2 = .ok openClass ∧
      ∃ options, openClass.options = .ok options ∧
        options.error? = some (.excludePattern ⟨"[", .unclosedClass⟩) ∧
        ∀ tree : RepoTree,
          tree.graph options = .error (.option (.excludePattern ⟨"[", .unclosedClass⟩)) := by
  have hfault : openClass.fault? = none := by decide +kernel
  have hpattern : firstGlobError? openClass.analysis.excludePatterns =
      some ⟨"[", .unclosedClass⟩ := by decide +kernel
  obtain ⟨options, hok, herror⟩ := (fault?_eq_none_iff.mp hfault).options
  rw [hpattern, Option.map_some] at herror
  refine ⟨hfault, (load_patterns _).trans (checked_eq_ok_iff.mpr ⟨hfault, rfl⟩), options, hok,
    herror, ?_⟩
  intro tree
  exact RepoTree.graph_eq_option_error_iff.mpr herror

end Settings

end RepoGraph
