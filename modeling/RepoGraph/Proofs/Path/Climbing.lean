import RepoGraph.Proofs.Path.NormalForm

/-!
# Paths that climb

A walk goes along the segments of a path and ends as soon as it would leave the root. So a path has
a normal form exactly if no initial part of it goes up more often than it enters a name. A walk
depends on the names above it only, so it goes on from a directory as from its normal form.
-/

namespace RepoGraph.Path

instance : DecidablePred IsName := fun segment =>
  inferInstanceAs (Decidable (segment ≠ "" ∧ segment ≠ "." ∧ segment ≠ ".."))

private theorem step_cases (segment : String) :
    (segment = "" ∨ segment = ".") ∨ segment = ".." ∨ IsName segment := by
  by_cases hstay : segment = "" ∨ segment = "."
  · exact Or.inl hstay
  · by_cases hup : segment = ".."
    · exact Or.inr (Or.inl hup)
    · exact Or.inr (Or.inr ⟨(not_or.mp hstay).1, (not_or.mp hstay).2, hup⟩)

private theorem walk_cons_of_stays {segment : String} (h : segment = "" ∨ segment = ".")
    (above rest : List String) : walk above (segment :: rest) = walk above rest := by
  rw [walk.eq_def]
  exact if_pos h

private theorem walk_nil_up (rest : List String) : walk [] (".." :: rest) = none := by
  simp [walk]

private theorem walk_cons_up (name : String) (above rest : List String) :
    walk (name :: above) (".." :: rest) = walk above rest := by
  simp [walk]

private theorem walk_append (above front back : List String) :
    walk above (front ++ back) =
      (walk above front).bind fun names => walk names.reverse back := by
  induction front generalizing above with
  | nil => rw [List.nil_append, walk, Option.bind_some, List.reverse_reverse]
  | cons segment front ih =>
    rw [List.cons_append]
    rcases step_cases segment with hstay | rfl | hname
    · rw [walk_cons_of_stays hstay, walk_cons_of_stays hstay, ih]
    · cases above with
      | nil => rw [walk_nil_up, walk_nil_up, Option.bind_none]
      | cons name above => rw [walk_cons_up, walk_cons_up, ih]
    · rw [walk_cons_of_isName hname, walk_cons_of_isName hname, ih]

/-- Whether no initial part of the segments goes up more often than it enters names, but for
`height` times. -/
def ClimbsAtMost (height : Nat) (segments : List String) : Prop :=
  ∀ front, front <+: segments → front.count ".." ≤ height + front.countP IsName

section Steps

variable {height : Nat} {segment : String} {rest : List String}

private theorem climbsAtMost_nil : ClimbsAtMost height [] := by
  intro front hfront
  rw [List.prefix_nil.mp hfront]
  exact Nat.zero_le _

private theorem climbsAtMost_cons_iff :
    ClimbsAtMost height (segment :: rest) ↔ ∀ front, front <+: rest →
      (segment :: front).count ".." ≤ height + (segment :: front).countP IsName := by
  constructor
  · intro h front hfront
    exact h _ (List.cons_prefix_cons.mpr ⟨rfl, hfront⟩)
  · intro h front hfront
    rcases List.prefix_cons_iff.mp hfront with rfl | ⟨front, rfl, hrest⟩
    · exact Nat.zero_le _
    · exact h front hrest

private theorem climbsAtMost_cons_of_stays (h : segment = "" ∨ segment = ".") :
    ClimbsAtMost height (segment :: rest) ↔ ClimbsAtMost height rest := by
  have hup : segment ≠ ".." := by
    rcases h with rfl | rfl <;> decide
  have hname : ¬ IsName segment := by
    rcases h with rfl | rfl <;> decide
  have hcount (front : List String) :
      (segment :: front).count ".." ≤ height + (segment :: front).countP IsName ↔
        front.count ".." ≤ height + front.countP IsName := by
    rw [List.count_cons_of_ne hup, List.countP_cons_of_neg (by simpa using hname)]
  rw [climbsAtMost_cons_iff]
  simp only [hcount]
  exact Iff.rfl

private theorem climbsAtMost_cons_of_isName (h : IsName segment) :
    ClimbsAtMost height (segment :: rest) ↔ ClimbsAtMost (height + 1) rest := by
  have hcount (front : List String) :
      (segment :: front).count ".." ≤ height + (segment :: front).countP IsName ↔
        front.count ".." ≤ height + 1 + front.countP IsName := by
    rw [List.count_cons_of_ne h.2.2, List.countP_cons_of_pos (by simpa using h)]
    omega
  rw [climbsAtMost_cons_iff]
  simp only [hcount]
  exact Iff.rfl

private theorem not_climbsAtMost_up : ¬ ClimbsAtMost 0 (".." :: rest) := by
  intro h
  have hfirst := h [".."] (List.cons_prefix_cons.mpr ⟨rfl, List.nil_prefix⟩)
  revert hfirst
  decide

private theorem climbsAtMost_cons_up :
    ClimbsAtMost (height + 1) (".." :: rest) ↔ ClimbsAtMost height rest := by
  have hcount (front : List String) :
      (".." :: front).count ".." ≤ height + 1 + (".." :: front).countP IsName ↔
        front.count ".." ≤ height + front.countP IsName := by
    rw [List.count_cons_self, List.countP_cons_of_neg (by decide)]
    omega
  rw [climbsAtMost_cons_iff]
  simp only [hcount]
  exact Iff.rfl

end Steps

/-- A walk reaches its end exactly if it climbs no higher than the names above it. -/
theorem isSome_walk_iff {above segments : List String} :
    (walk above segments).isSome = true ↔ ClimbsAtMost above.length segments := by
  induction segments generalizing above with
  | nil => exact iff_of_true rfl climbsAtMost_nil
  | cons segment rest ih =>
    rcases step_cases segment with hstay | rfl | hname
    · rw [walk_cons_of_stays hstay, climbsAtMost_cons_of_stays hstay, ih]
    · cases above with
      | nil =>
        rw [walk_nil_up]
        exact iff_of_false Bool.false_ne_true not_climbsAtMost_up
      | cons name above => rw [walk_cons_up, List.length_cons, climbsAtMost_cons_up, ih]
    · rw [walk_cons_of_isName hname, climbsAtMost_cons_of_isName hname, ih, List.length_cons]

private theorem isSome_normalize?_iff {path : String} :
    (normalize? path).isSome = true ↔ ClimbsAtMost 0 (segments path) := by
  rw [normalize?, Option.isSome_map, isSome_walk_iff, List.length_nil]

private theorem walk_segments_join {names : List String} {path : String}
    (h : ∀ name ∈ names, IsName name ∧ '/' ∉ name.toList) (hpath : path ≠ "") :
    walk [] (segments (join ("/".intercalate names) path)) =
      walk names.reverse (segments path) := by
  by_cases hnil : names = []
  · rw [hnil, String.intercalate_nil, join_root_left, List.reverse_nil]
  · have hempty : "" ∉ names := fun hmem => (h "" hmem).1.1 rfl
    rw [segments_join (intercalate_ne_empty hempty hnil) hpath,
      segments_intercalate (fun name hname => (h name hname).2) hnil, walk_append,
      walk_of_isName fun name hname => (h name hname).1]
    rfl

/-- The normal form of a path below a directory is that of the path below the directory's normal
form. -/
theorem normalize?_join (dir path : String) :
    normalize? (join dir path) =
      (normalize? dir).bind fun normal => normalize? (join normal path) := by
  by_cases hdir : dir = ""
  · have hroot : normalize? "" = some "" := isNormal_root
    rw [hdir, hroot, Option.bind_some]
  by_cases hpath : path = ""
  · rw [hpath, join_root_right]
    cases hnormal : normalize? dir with
    | none => rfl
    | some normal =>
      rw [Option.bind_some, join_root_right]
      exact (isNormal_of_normalize? hnormal).symm
  rw [normalize?, segments_join hdir hpath, walk_append, normalize?]
  cases hwalk : walk [] (segments dir) with
  | none => rfl
  | some names =>
    have hnames : ∀ name ∈ names, IsName name ∧ '/' ∉ name.toList := by
      intro name hname
      obtain ⟨hproper, hmem⟩ := of_mem_walk hwalk (by simp) hname
      exact ⟨hproper, slash_notMem_of_mem_segments (hmem.resolve_left List.not_mem_nil)⟩
    rw [Option.bind_some, Option.map_some, Option.bind_some, normalize?,
      walk_segments_join hnames hpath]

/-- A path has a normal form exactly if no initial part of its segments holds more `..` than names.
The form has names as segments only, or is the root, and is its own normal form. Below a directory
a path leads to where it leads below the directory's normal form, and nowhere if there is none. -/
theorem normalize?_laws (path dir : String) :
    ((normalize? path).isSome = true ↔
        ∀ front, front <+: segments path → front.count ".." ≤ front.countP IsName) ∧
      (∀ normal, normalize? path = some normal →
        (normal = "" ∨ ∀ segment ∈ segments normal,
            segment ≠ "" ∧ segment ≠ "." ∧ segment ≠ "..") ∧
          normalize? normal = some normal) ∧
      (∀ normal, normalize? dir = some normal →
        normalize? (join dir path) = normalize? (join normal path)) ∧
      (normalize? dir = none → normalize? (join dir path) = none) := by
  refine ⟨?_, ?_, ?_, ?_⟩
  · rw [isSome_normalize?_iff, ClimbsAtMost]
    simp only [Nat.zero_add]
  · intro normal h
    have hnormal : IsNormal normal := isNormal_of_normalize? h
    exact ⟨isNormal_iff.mp hnormal, hnormal⟩
  · intro normal h
    rw [normalize?_join, h, Option.bind_some]
  · intro h
    rw [normalize?_join, h, Option.bind_none]

/-- A path that goes back and forth, below a directory with doubled slashes and below one above the
root. -/
theorem normalize?_laws_backAndForth :
    let path := "../src/./a/../b.ts"
    (normalize? "src/./a/../b.ts" = some "src/b.ts" ∧ normalize? "src/b.ts" = some "src/b.ts") ∧
      (normalize? "/lib//x/" = some "lib/x" ∧
        normalize? (join "/lib//x/" path) = normalize? (join "lib/x" path)) ∧
      normalize? "a/../.." = none ∧ normalize? (join "a/../.." path) = none := by
  intro path
  have hpath : normalize? "src/./a/../b.ts" = some "src/b.ts" := by decide
  have hdir : normalize? "/lib//x/" = some "lib/x" := by decide
  have habove : normalize? "a/../.." = none := by decide
  exact ⟨⟨hpath, ((normalize?_laws "src/./a/../b.ts" "").2.1 _ hpath).2⟩,
    ⟨hdir, (normalize?_laws path "/lib//x/").2.2.1 _ hdir⟩,
    habove, (normalize?_laws path "a/../..").2.2.2 habove⟩

end RepoGraph.Path
