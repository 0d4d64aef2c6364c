import RepoGraph.Text.Lower
import RepoGraph.Proofs.Path.NormalForm

/-!
# Lower case between slashes

The small form of a capital sigma depends on the letters around it. A slash ends a word, so that the
segments of a path are put into lower case one by one, and no other character becomes a slash.
-/

namespace RepoGraph

namespace Text

def smallForm (seen : List Char) (c : Char) (s : List Char) : List Char :=
  if c == 'Σ' then [if meetsCased seen && !meetsCased s then 'ς' else 'σ']
  else if c == 'İ' then ['i', '\u0307']
  else [lowerChar c]

def lowerAfter (seen : List Char) : List Char → List Char
  | [] => []
  | c :: s => smallForm seen c s ++ lowerAfter (c :: seen) s

private theorem lowerFrom_cons (seen done : List Char) (c : Char) (s : List Char) :
    lowerFrom seen done (c :: s) =
      lowerFrom (c :: seen) ((smallForm seen c s).reverse ++ done) s := by
  rw [lowerFrom, smallForm]
  split
  · rfl
  · split <;> rfl

private theorem lowerFrom_eq (seen done s : List Char) :
    lowerFrom seen done s = done.reverse ++ lowerAfter seen s := by
  induction s generalizing seen done with
  | nil => exact (List.append_nil _).symm
  | cons c s ih =>
    rw [lowerFrom_cons, ih, lowerAfter, List.reverse_append, List.reverse_reverse,
      List.append_assoc]

private theorem lower_eq (s : List Char) : lower s = lowerAfter [] s := lowerFrom_eq [] [] s

private theorem smallForm_ne_nil (seen : List Char) (c : Char) (s : List Char) :
    smallForm seen c s ≠ [] := by
  rw [smallForm]
  split
  · exact List.cons_ne_nil _ _
  · split <;> exact List.cons_ne_nil _ _

private theorem lower_ne_nil {s : List Char} (h : s ≠ []) : lower s ≠ [] := by
  obtain ⟨c, s, rfl⟩ := List.exists_cons_of_ne_nil h
  rw [lower_eq, lowerAfter]
  exact List.append_ne_nil_of_left_ne_nil (smallForm_ne_nil _ _ _) _

private theorem meetsCased_cons (c : Char) (s : List Char) :
    meetsCased (c :: s) = if isCaseIgnorable c then meetsCased s else isCased c := by
  rw [meetsCased, List.dropWhile_cons]
  split_ifs <;> rfl

private theorem meetsCased_append_slash (s rest : List Char) :
    meetsCased (s ++ '/' :: rest) = meetsCased s := by
  induction s with
  | nil =>
    rw [List.nil_append, meetsCased_cons]
    rfl
  | cons c s ih => rw [List.cons_append, meetsCased_cons, meetsCased_cons, ih]

private theorem smallForm_append_slash (seen : List Char) (c : Char) (s rest : List Char) :
    smallForm seen c (s ++ '/' :: rest) = smallForm seen c s := by
  rw [smallForm, smallForm, meetsCased_append_slash]

private theorem smallForm_passed (seen passed : List Char) (c : Char) (s : List Char) :
    smallForm (seen ++ '/' :: passed) c s = smallForm seen c s := by
  rw [smallForm, smallForm, meetsCased_append_slash]

private theorem lowerAfter_passed (seen passed s : List Char) :
    lowerAfter (seen ++ '/' :: passed) s = lowerAfter seen s := by
  induction s generalizing seen with
  | nil => rfl
  | cons c s ih =>
    rw [lowerAfter, lowerAfter, smallForm_passed, ← List.cons_append, ih]

private theorem lowerAfter_append_slash (seen s rest : List Char) :
    lowerAfter seen (s ++ '/' :: rest) = lowerAfter seen s ++ '/' :: lower rest := by
  induction s generalizing seen with
  | nil =>
    have hslash : smallForm seen '/' rest = ['/'] := rfl
    rw [List.nil_append, lowerAfter, lowerAfter, hslash, lower_eq]
    exact congrArg ('/' :: ·) (lowerAfter_passed [] seen rest)
  | cons c s ih =>
    rw [List.cons_append, lowerAfter, lowerAfter, smallForm_append_slash, ih, List.append_assoc]

private theorem lower_append_slash (s rest : List Char) :
    lower (s ++ '/' :: rest) = lower s ++ '/' :: lower rest := by
  rw [lower_eq, lowerAfter_append_slash, ← lower_eq]

private theorem lower_intercalate (pieces : List (List Char)) :
    lower (['/'].intercalate pieces) = ['/'].intercalate (pieces.map lower) := by
  induction pieces with
  | nil => rfl
  | cons piece pieces ih =>
    cases pieces with
    | nil => simp
    | cons next pieces =>
      rw [List.map_cons, List.map_cons, List.intercalate_cons_cons, List.intercalate_cons_cons,
        ← List.map_cons, ← ih, List.append_assoc, List.append_assoc, List.singleton_append,
        List.singleton_append, lower_append_slash]

private theorem slash_lt_lowerRuns : lowerRuns.all (fun run => 47 < run.1 + run.2.2.2) = true := by
  decide +kernel

private theorem ofNat_ne_slash {n : Nat} (h : n ≠ 47) : Char.ofNat n ≠ '/' := by
  by_cases hvalid : n.isValidChar
  · have hchar : Char.ofNat n = Char.ofNatAux n hvalid := dif_pos hvalid
    rw [hchar]
    exact fun heq => h (congrArg Char.toNat heq)
  · have hchar : Char.ofNat n = '\x00' := dif_neg hvalid
    rw [hchar]
    decide

private theorem lowerChar_ne_slash {c : Char} (h : c ≠ '/') : lowerChar c ≠ '/' := by
  rw [lowerChar]
  dsimp only
  split
  · split
    · rename_i hcapital
      rw [Bool.and_eq_true, decide_eq_true_iff, decide_eq_true_iff] at hcapital
      have hlow : 65 ≤ c.toNat := hcapital.1
      exact ofNat_ne_slash (by omega)
    · exact h
  · split
    · rename_i lo hi step delta hfound
      have hrun := List.all_eq_true.mp slash_lt_lowerRuns _ (List.mem_of_find?_eq_some hfound)
      have hin := List.find?_some hfound
      simp only [Bool.and_eq_true, decide_eq_true_iff] at hrun hin
      exact ofNat_ne_slash (by omega)
    · exact h

private theorem slash_notMem_smallForm {c : Char} (h : c ≠ '/') (seen s : List Char) :
    '/' ∉ smallForm seen c s := by
  rw [smallForm]
  split
  · split <;> decide
  · split
    · decide
    · exact fun hmem => lowerChar_ne_slash h (List.mem_singleton.mp hmem).symm

private theorem slash_notMem_lower {s : List Char} (h : '/' ∉ s) : '/' ∉ lower s := by
  rw [lower_eq]
  generalize ([] : List Char) = seen
  induction s generalizing seen with
  | nil => exact List.not_mem_nil
  | cons c s ih =>
    obtain ⟨hc, hs⟩ := not_or.mp (mt List.mem_cons.mpr h)
    rw [lowerAfter, List.mem_append, not_or]
    exact ⟨slash_notMem_smallForm (Ne.symm hc) seen s, ih hs (c :: seen)⟩

private theorem splitOn_lower (s : List Char) :
    splitOn '/' (lower s) = (splitOn '/' s).map lower := by
  have hpieces : ∀ piece ∈ (splitOn '/' s).map lower, '/' ∉ piece := by
    intro piece hpiece
    obtain ⟨part, hpart, rfl⟩ := List.mem_map.mp hpiece
    exact slash_notMem_lower (of_mem_splitOn hpart).1
  have hne : (splitOn '/' s).map lower ≠ [] := mt List.map_eq_nil_iff.mp (splitOn_ne_nil '/' s)
  rw [← splitOn_intercalate hpieces hne, ← lower_intercalate, intercalate_splitOn]

/-- The lower-case form of a text. -/
def lowered (s : String) : String := String.ofList (lower s.toList)

theorem lowered_ne_empty {s : String} (h : s ≠ "") : lowered s ≠ "" := by
  rw [lowered, ← String.ofList_nil]
  exact mt String.ofList_injective (lower_ne_nil (mt String.toList_eq_nil_iff.mp h))

end Text

namespace Path

open Text

theorem segments_lowered (path : String) : segments (lowered path) = (segments path).map lowered := by
  rw [segments, pieces, lowered, String.toList_ofList, splitOn_lower, segments, pieces,
    List.map_map, List.map_map]
  refine List.map_congr_left fun piece _ => ?_
  simp [lowered]

end Path

end RepoGraph
