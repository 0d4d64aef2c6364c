import RepoGraph.Proofs.Path.NormalForm

/-!
# Directories above a path

The directories above a path are the root and whatever stands in front of one of its slashes. Each
is a start of the path, so that the deeper one is the longer one.
-/

namespace RepoGraph.Path

open Text

variable {dir above path : String}

/-- Whether a directory holds a path, directly or further below. -/
def Encloses (dir path : String) : Prop := dir = "" ∨ ∃ rest, path = dir ++ "/" ++ rest

theorem Encloses.isPrefix (h : Encloses dir path) : dir.toList <+: path.toList := by
  rcases h with rfl | ⟨rest, rfl⟩
  · exact List.nil_prefix
  · rw [String.append_assoc, String.toList_append]
    exact List.prefix_append _ _

private theorem toList_below (dir name : String) :
    (dir ++ "/" ++ name).toList = dir.toList ++ '/' :: name.toList := by
  rw [String.toList_append, String.toList_append, List.append_assoc]
  rfl

private theorem parent_append {name : String} (dir : String) (hname : '/' ∉ name.toList) :
    parent (dir ++ "/" ++ name) = dir := by
  rw [parent, parentChars, toList_below, cutLast?_append hname, String.ofList_toList]

private theorem parent_of_slash_notMem (h : '/' ∉ path.toList) : parent path = "" := by
  have hcut : cutLast? '/' path.toList = none := by
    rw [Option.eq_none_iff_forall_ne_some]
    rintro ⟨before, after⟩ hcut
    rw [(cutLast?_eq_some hcut).1] at h
    exact h (List.mem_append_right before List.mem_cons_self)
  rw [parent, parentChars, hcut, String.ofList_nil]

private theorem exists_eq_append_of_slash_mem (h : '/' ∈ path.toList) :
    ∃ dir name, path = dir ++ "/" ++ name ∧ '/' ∉ name.toList := by
  cases hcut : cutLast? '/' path.toList with
  | none => exact absurd h (notMem_of_cutLast?_eq_none hcut)
  | some parts =>
    obtain ⟨heq, hname⟩ := eq_append_of_cutLast? hcut
    exact ⟨_, _, heq, by rwa [String.toList_ofList]⟩

private theorem length_parent_lt (h : path ≠ "") : (parent path).length < path.length := by
  rw [parent, String.length_ofList, ← String.length_toList]
  exact length_parentChars_lt (mt String.toList_eq_nil_iff.mp h)

private theorem encloses_iff_of_slash_notMem (h : '/' ∉ path.toList) :
    Encloses dir path ↔ dir = "" := by
  refine or_iff_left ?_
  rintro ⟨rest, rfl⟩
  rw [toList_below] at h
  exact h (List.mem_append_right _ List.mem_cons_self)

/-- What holds a path is its directory or holds that. -/
theorem encloses_iff_parent :
    Encloses above path ↔ above = parent path ∨ Encloses above (parent path) := by
  by_cases hslash : '/' ∈ path.toList
  · obtain ⟨dir, name, rfl, hname⟩ := exists_eq_append_of_slash_mem hslash
    rw [parent_append dir hname]
    constructor
    · rintro (rfl | ⟨rest, hrest⟩)
      · exact Or.inr (Or.inl rfl)
      · have hchars := congrArg String.toList hrest
        rw [toList_below, toList_below, List.append_eq_append_iff] at hchars
        rcases hchars with ⟨between, habove, hbetween⟩ | ⟨between, hdir, hbetween⟩
        · cases between with
          | nil =>
            left
            apply String.toList_inj.mp
            rw [habove, List.append_nil]
          | cons c between =>
            -- The name has no slash in front of which a directory could stand.
            obtain ⟨-, htail⟩ := List.cons.inj hbetween
            exact absurd (htail ▸ List.mem_append_right between List.mem_cons_self) hname
        · cases between with
          | nil =>
            left
            apply String.toList_inj.mp
            rw [hdir, List.append_nil]
          | cons c between =>
            obtain ⟨rfl, -⟩ := List.cons.inj hbetween
            right
            right
            refine ⟨String.ofList between, ?_⟩
            apply String.toList_inj.mp
            rw [hdir, toList_below, String.toList_ofList]
    · rintro (rfl | rfl | ⟨rest, rfl⟩)
      · exact Or.inr ⟨name, rfl⟩
      · exact Or.inl rfl
      · exact Or.inr ⟨rest ++ "/" ++ name, by simp only [String.append_assoc]⟩
  · rw [parent_of_slash_notMem hslash, encloses_iff_of_slash_notMem hslash,
      encloses_iff_of_slash_notMem (by decide), or_self]

private theorem mem_ancestors_iff {dir above : String} :
    above ∈ ancestors dir ↔ above = dir ∨ Encloses above dir := by
  by_cases hdir : dir = ""
  · subst hdir
    rw [ancestors_root, List.mem_singleton, encloses_iff_of_slash_notMem (by decide), or_self]
  · have := length_parent_lt hdir
    rw [ancestors_of_ne_root hdir, List.mem_cons, mem_ancestors_iff,
      ← encloses_iff_parent]
termination_by dir.length

theorem mem_ancestors_parent_iff : above ∈ ancestors (parent path) ↔ Encloses above path := by
  rw [mem_ancestors_iff, ← encloses_iff_parent]

theorem pairwise_ancestors (dir : String) :
    (ancestors dir).Pairwise fun a b => b.length < a.length := by
  by_cases hdir : dir = ""
  · subst hdir
    rw [ancestors_root]
    exact List.pairwise_singleton _ _
  · have hparent := length_parent_lt hdir
    rw [ancestors_of_ne_root hdir]
    refine List.pairwise_cons.mpr ⟨?_, pairwise_ancestors (parent dir)⟩
    intro above habove
    rcases mem_ancestors_iff.mp habove with rfl | hencloses
    · exact hparent
    · have hle := hencloses.isPrefix.length_le
      rw [String.length_toList, String.length_toList] at hle
      omega
termination_by dir.length

end RepoGraph.Path
