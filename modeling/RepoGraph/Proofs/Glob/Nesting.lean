import RepoGraph.Glob.Limits

/-!
# Patterns that are nested too deep

A choice inside choices is a pattern, however many they are. Each adds a level, so a pattern of many
is beyond the limit, and no patterns can be used beside it.
-/

namespace RepoGraph

def GlobToken.nested : Nat → GlobToken
  | 0 => anyOne
  | depth + 1 => choice [[nested depth]]

private theorem GlobToken.extent_nested (depth : Nat) : extent {} (nested depth) = (1, depth) := by
  induction depth with
  | zero => rfl
  | succ depth ih => simp [nested, extent, branchesExtent, sequenceExtent, ih]

/-- A question mark inside pairs of braces. -/
def nestedPattern (depth : Nat) : List Char :=
  List.replicate depth '\x7b' ++ '?' :: List.replicate depth '\x7d'

private theorem nestedPattern_succ (depth : Nat) :
    nestedPattern (depth + 1) = '\x7b' :: (nestedPattern depth ++ ['\x7d']) := by
  simp [nestedPattern, List.replicate_succ, ← List.replicate_succ']

private theorem GlobReading.rest_nestedPattern (rules : GlobRules) (depth : Nat)
    (reading : GlobReading) (s : List Char) :
    ∃ before, reading.rest rules (nestedPattern depth ++ s) =
      GlobReading.rest rules
        { reading with current := .nested depth :: reading.current, before } s := by
  induction depth generalizing reading s with
  | zero => exact ⟨some '?', by rw [nestedPattern]; simp [rest, push, GlobToken.nested]⟩
  | succ depth ih =>
    -- The inner pattern is read as the only part of a new branch, which the last brace ends.
    obtain ⟨before, hinner⟩ := ih reading.openChoice ('\x7d' :: s)
    refine ⟨some '\x7d', ?_⟩
    rw [nestedPattern_succ, List.cons_append, List.append_assoc, List.singleton_append, rest,
      hinner, rest]
    rfl

def Glob.nested (depth : Nat) : Glob := ⟨{}, [.nested depth]⟩

theorem Glob.parse_nestedPattern (depth : Nat) :
    Glob.parse {} (String.ofList (nestedPattern depth)) = .ok (nested depth) := by
  obtain ⟨before, hrest⟩ := GlobReading.rest_nestedPattern {} depth {} []
  rw [List.append_nil] at hrest
  rw [parse, String.toList_ofList, hrest, GlobReading.rest]
  rfl

private theorem Glob.levels_nested (depth : Nat) : (nested depth).levels = depth + 1 := by
  simp [levels, nested, GlobToken.sequenceExtent, GlobToken.extent_nested]

private theorem Glob.not_areUsable {globs : List Glob} {glob : Glob} (hmem : glob ∈ globs)
    (htexts : glob.comparesTexts = false) (hlevels : levelLimit < glob.levels) :
    areUsable globs = false := by
  have hlimits : ∀ others : List Glob, glob ∈ others → keepsLimits others = false := by
    intro others hother
    have hall : (others.all fun glob => decide (glob.levels ≤ levelLimit)) = false := by
      rw [List.all_eq_false]
      exact ⟨glob, hother, by simpa using hlevels⟩
    rw [keepsLimits, hall, Bool.false_and]
  have hkept : glob ∈ globs.filter (!·.comparesTexts) := by
    simp [hmem, htexts]
  rw [areUsable, List.partition_eq_filter_filter]
  dsimp only
  by_cases hext : glob.endsWithExtension = true
  · have halone : glob ∈ (globs.filter (!·.comparesTexts)).filter endsWithExtension :=
      List.mem_filter.mpr ⟨hkept, hext⟩
    have hall : ((globs.filter (!·.comparesTexts)).filter endsWithExtension).all
        (fun glob => keepsLimits [glob]) = false :=
      List.all_eq_false.mpr ⟨glob, halone, by simp [hlimits [glob] List.mem_cons_self]⟩
    rw [hall, Bool.false_and]
  · have hshared : glob ∈ (globs.filter (!·.comparesTexts)).filter (not ∘ endsWithExtension) :=
      List.mem_filter.mpr ⟨hkept, by simpa using hext⟩
    rw [hlimits _ hshared, Bool.and_false]

theorem Glob.not_areUsable_nested {depth : Nat} (h : levelLimit ≤ depth) {globs : List Glob}
    (hmem : nested depth ∈ globs) : areUsable globs = false := by
  apply not_areUsable hmem
  · cases depth <;> rfl
  · rw [levels_nested]
    omega

end RepoGraph
