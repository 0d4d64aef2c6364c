import Mathlib.Data.List.TakeWhile
import RepoGraph.Text.Split

/-!
# Pieces of a text

Cutting at a character is the library's `List.splitOn`, so that joining and cutting undo each other.
What is cut out of a text stands in it.
-/

namespace RepoGraph.Text

private theorem splitWhen_eq_splitOnP (p : Char → Bool) (s : List Char) :
    splitWhen p s = s.splitOnP p := by
  induction s with
  | nil => rfl
  | cons c s ih =>
    have hne : splitWhen p s ≠ [] := ih ▸ List.splitOnP_ne_nil p s
    obtain ⟨piece, rest, heq⟩ := List.exists_cons_of_ne_nil hne
    rw [List.splitOnP_cons_eq_if_modifyHead, ← ih, heq, splitWhen, List.foldr_cons]
    rw [splitWhen] at heq
    rw [heq]
    rfl

private theorem of_mem_splitWhen {p : Char → Bool} {s piece : List Char}
    (h : piece ∈ splitWhen p s) :
    ∀ c ∈ piece, p c = false := by
  induction s generalizing piece with
  | nil =>
    obtain rfl := List.mem_singleton.mp h
    exact fun c hc => absurd hc List.not_mem_nil
  | cons d s ih =>
    have hne : splitWhen p s ≠ [] := splitWhen_eq_splitOnP p s ▸ List.splitOnP_ne_nil p s
    obtain ⟨first, rest, heq⟩ := List.exists_cons_of_ne_nil hne
    rw [splitWhen_eq_splitOnP, List.splitOnP_cons_eq_if_modifyHead, ← splitWhen_eq_splitOnP,
      heq] at h
    rw [heq] at ih
    split at h
    · rcases List.mem_cons.mp h with rfl | h
      · exact fun c hc => absurd hc List.not_mem_nil
      · exact ih h
    · rename_i hd
      rcases List.mem_cons.mp h with rfl | h
      · intro c hc
        rcases List.mem_cons.mp hc with rfl | hc
        · simpa using hd
        · exact ih List.mem_cons_self c hc
      · exact ih (List.mem_cons_of_mem _ h)

private theorem splitOn_eq (sep : Char) (s : List Char) : splitOn sep s = s.splitOn sep := by
  rw [splitOn, splitWhen_eq_splitOnP, List.splitOn_eq_splitOnP]

theorem splitOn_ne_nil (sep : Char) (s : List Char) : splitOn sep s ≠ [] := by
  rw [splitOn_eq]
  exact List.splitOn_ne_nil sep s

theorem splitOn_append_cons (sep : Char) (s rest : List Char) :
    splitOn sep (s ++ sep :: rest) = splitOn sep s ++ splitOn sep rest := by
  rw [splitOn_eq, splitOn_eq, splitOn_eq, List.splitOn_append_cons_self]

theorem splitOn_of_notMem {sep : Char} {s : List Char} (h : sep ∉ s) : splitOn sep s = [s] := by
  rw [splitOn_eq, List.splitOn_eq_singleton h]

theorem splitOn_cons (sep c : Char) (s : List Char) :
    splitOn sep (c :: s) =
      if c = sep then [] :: splitOn sep s else (splitOn sep s).modifyHead (List.cons c) := by
  rw [splitOn, splitWhen_eq_splitOnP, List.splitOnP_cons_eq_if_modifyHead, ← splitWhen_eq_splitOnP,
    ← splitOn]
  simp

theorem head?_splitOn (sep : Char) (s : List Char) :
    (splitOn sep s).head? = some (s.takeWhile (· != sep)) := by
  induction s with
  | nil => rfl
  | cons c s ih =>
    rw [splitOn_cons]
    by_cases hsep : c = sep
    · rw [if_pos hsep, List.head?_cons, List.takeWhile_cons_of_neg (by simp [hsep])]
    · rw [if_neg hsep, List.head?_modifyHead, ih, List.takeWhile_cons_of_pos (by simp [hsep])]
      rfl

theorem length_splitOn (sep : Char) (s : List Char) :
    (splitOn sep s).length = s.count sep + 1 := by
  induction s with
  | nil => rfl
  | cons c s ih =>
    rw [splitOn_cons]
    split
    · rename_i hsep
      rw [hsep, List.length_cons, List.count_cons_self, ih]
    · rename_i hsep
      rw [List.length_modifyHead, List.count_cons_of_ne hsep, ih]

theorem splitOn_map_replace {sep sep' : Char} {s : List Char} (h : sep' ∉ s) :
    splitOn sep' (s.map fun c => if c == sep then sep' else c) = splitOn sep s := by
  induction s with
  | nil => rfl
  | cons c s ih =>
    obtain ⟨hc, hs⟩ := not_or.mp (mt List.mem_cons.mpr h)
    rw [List.map_cons, splitOn_cons, splitOn_cons, ih hs]
    by_cases hsep : c = sep
    · have hreplace : (if c == sep then sep' else c) = sep' := if_pos (beq_iff_eq.mpr hsep)
      rw [hreplace, if_pos rfl, if_pos hsep]
    · have hreplace : (if c == sep then sep' else c) = c := if_neg (by simpa using hsep)
      rw [hreplace, if_neg (Ne.symm hc), if_neg hsep]

theorem intercalate_splitOn (sep : Char) (s : List Char) : [sep].intercalate (splitOn sep s) = s := by
  rw [splitOn_eq, List.intercalate_splitOn]

theorem splitOn_intercalate {sep : Char} {pieces : List (List Char)}
    (h : ∀ piece ∈ pieces, sep ∉ piece) (hne : pieces ≠ []) :
    splitOn sep ([sep].intercalate pieces) = pieces := by
  rw [splitOn_eq, List.splitOn_intercalate sep h hne]

theorem of_mem_splitOn {sep : Char} {s piece : List Char} (h : piece ∈ splitOn sep s) :
    sep ∉ piece ∧ piece <:+: s := by
  by_cases hsep : sep ∈ s
  · obtain ⟨first, rest, heq, hfirst⟩ := List.eq_append_cons_of_mem hsep
    rw [heq, splitOn_append_cons, splitOn_of_notMem hfirst] at h
    have hlt : rest.length < s.length := by
      rw [heq, List.length_append, List.length_cons]
      omega
    rcases List.mem_cons.mp h with rfl | h
    · rw [heq]
      exact ⟨hfirst, (List.prefix_append _ _).isInfix⟩
    · obtain ⟨hno, hpiece⟩ := of_mem_splitOn h
      have hrest : rest <:+ s := by
        rw [heq]
        exact (List.suffix_cons sep rest).trans (List.suffix_append first _)
      exact ⟨hno, hpiece.trans hrest.isInfix⟩
  · rw [splitOn_of_notMem hsep, List.mem_singleton] at h
    subst h
    exact ⟨hsep, List.infix_rfl⟩
termination_by s.length

private theorem isInfix_of_mem_splitFrom {sep out : List Char} {piece : List Char} {skip : Nat}
    {s : List Char} (hskip : skip = 0 ∨ piece = []) (h : out ∈ splitFrom sep piece skip s) :
    out <:+: piece.reverse ++ s := by
  -- Characters are passed over only between two pieces, when none of the next piece is read yet.
  induction s generalizing piece skip with
  | nil =>
    have hout : out = piece.reverse := by
      cases skip <;> exact List.mem_singleton.mp h
    rw [hout]
    exact (List.prefix_append _ _).isInfix
  | cons c s ih =>
    cases skip with
    | succ skip =>
      have hnil : piece = [] := hskip.resolve_left (Nat.succ_ne_zero skip)
      subst hnil
      exact (ih (Or.inr rfl) h).trans (List.suffix_cons c s).isInfix
    | zero =>
      rw [splitFrom] at h
      split at h
      · rcases List.mem_cons.mp h with rfl | h
        · exact (List.prefix_append _ _).isInfix
        · have hrest : s <:+ piece.reverse ++ c :: s :=
            (List.suffix_cons c s).trans (List.suffix_append _ _)
          exact (ih (Or.inr rfl) h).trans hrest.isInfix
      · have hout := ih (Or.inl rfl) h
        rwa [List.reverse_cons, List.append_assoc, List.singleton_append] at hout

theorem isInfix_of_mem_splitOnText {sep s piece : List Char} (h : piece ∈ splitOnText sep s) :
    piece <:+: s :=
  isInfix_of_mem_splitFrom (Or.inl rfl) h

theorem stripStart?_eq_some_iff {pre s rest : List Char} :
    stripStart? pre s = some rest ↔ s = pre ++ rest := by
  induction pre generalizing s with
  | nil =>
    rw [stripStart?, Option.some.injEq, List.nil_append]
  | cons p pre ih =>
    cases s with
    | nil => simp [stripStart?]
    | cons c s =>
      rw [stripStart?, List.cons_append, List.cons.injEq]
      by_cases h : p = c
      · rw [if_pos (beq_iff_eq.mpr h), ih]
        simp [h]
      · rw [if_neg (by simpa using h)]
        simp [Ne.symm h]

theorem suffix_of_stripStart? {pre s rest : List Char} (h : stripStart? pre s = some rest) :
    rest <:+ s :=
  stripStart?_eq_some_iff.mp h ▸ List.suffix_append pre rest

theorem isSome_stripStart?_iff {pre s : List Char} :
    (stripStart? pre s).isSome = true ↔ pre <+: s := by
  rw [Option.isSome_iff_exists]
  constructor
  · rintro ⟨rest, hrest⟩
    exact ⟨rest, (stripStart?_eq_some_iff.mp hrest).symm⟩
  · rintro ⟨rest, hrest⟩
    exact ⟨rest, stripStart?_eq_some_iff.mpr hrest.symm⟩

theorem stripEnd?_eq_some_iff {post s front : List Char} :
    stripEnd? post s = some front ↔ s = front ++ post := by
  rw [stripEnd?, Option.map_eq_some_iff]
  simp only [stripStart?_eq_some_iff]
  constructor
  · rintro ⟨rest, hrest, rfl⟩
    rw [← List.reverse_inj, hrest, List.reverse_append, List.reverse_reverse]
  · rintro rfl
    exact ⟨front.reverse, List.reverse_append, List.reverse_reverse front⟩

theorem endsWith_iff {post s : List Char} : endsWith post s = true ↔ post <:+ s := by
  rw [endsWith, stripEnd?, Option.isSome_map, isSome_stripStart?_iff, List.reverse_prefix]

theorem suffix_of_notMem {c : Char} {front rest s : List Char} (hc : c ∉ front)
    (h : c :: s <:+ front ++ rest) : c :: s <:+ rest := by
  obtain ⟨before, hbefore⟩ := h
  rcases List.append_eq_append_iff.mp hbefore with ⟨between, rfl, hrest⟩ | ⟨between, -, hrest⟩
  · cases between with
    | nil => exact ⟨[], hrest⟩
    | cons d between =>
      obtain ⟨rfl, -⟩ := List.cons.inj hrest
      exact absurd (List.mem_append_right before List.mem_cons_self) hc
  · exact ⟨between, hrest.symm⟩

private theorem splitFrom_append {c : Char} {sep s : List Char} (h : c ∉ s)
    (piece rest : List Char) :
    splitFrom (c :: sep) piece 0 (s ++ rest) = splitFrom (c :: sep) (s.reverse ++ piece) 0 rest := by
  induction s generalizing piece with
  | nil => rfl
  | cons d s ih =>
    obtain ⟨hd, hs⟩ := not_or.mp (mt List.mem_cons.mpr h)
    have hstart : ¬ startsWith (c :: sep) (d :: (s ++ rest)) = true := by
      simp [startsWith, stripStart?, hd]
    rw [List.cons_append, splitFrom, if_neg hstart, ih hs, List.reverse_cons, List.append_assoc,
      List.singleton_append]

private theorem splitFrom_skip (sep piece passed rest : List Char) :
    splitFrom sep piece passed.length (passed ++ rest) = splitFrom sep piece 0 rest := by
  induction passed with
  | nil => rfl
  | cons c passed ih => exact ih

private theorem splitOnText_of_notMem {c : Char} {sep s : List Char} (h : c ∉ s) :
    splitOnText (c :: sep) s = [s] := by
  have hpiece := @splitFrom_append c sep s h [] []
  rw [List.append_nil, List.append_nil] at hpiece
  rw [splitOnText, hpiece, splitFrom, List.reverse_reverse]

private theorem splitOnText_append {c : Char} {sep s : List Char} (h : c ∉ s) (rest : List Char) :
    splitOnText (c :: sep) (s ++ (c :: sep) ++ rest) = s :: splitOnText (c :: sep) rest := by
  have hstart : startsWith (c :: sep) (c :: (sep ++ rest)) = true := by
    rw [startsWith, isSome_stripStart?_iff]
    exact List.prefix_append (c :: sep) rest
  rw [splitOnText, List.append_assoc, splitFrom_append h, List.append_nil, List.cons_append,
    splitFrom, if_pos hstart, List.reverse_reverse, List.length_cons, Nat.add_sub_cancel,
    splitFrom_skip]
  rfl

theorem splitOnText_singleton (c : Char) (s : List Char) : splitOnText [c] s = splitOn c s := by
  by_cases hc : c ∈ s
  · obtain ⟨first, rest, rfl, hfirst⟩ := List.eq_append_cons_of_mem hc
    have hlt : rest.length < (first ++ c :: rest).length := by
      rw [List.length_append, List.length_cons]
      omega
    have hcut := @splitOnText_append c [] first hfirst rest
    rw [List.append_assoc, List.singleton_append] at hcut
    rw [hcut, splitOnText_singleton c rest, splitOn_append_cons, splitOn_of_notMem hfirst,
      List.singleton_append]
  · rw [splitOnText_of_notMem hc, splitOn_of_notMem hc]
termination_by s.length

theorem splitOnText_intercalate {c : Char} {sep : List Char} {pieces : List (List Char)}
    (h : ∀ piece ∈ pieces, c ∉ piece) (hne : pieces ≠ []) :
    splitOnText (c :: sep) ((c :: sep).intercalate pieces) = pieces := by
  induction pieces with
  | nil => exact absurd rfl hne
  | cons piece pieces ih =>
    cases pieces with
    | nil => rw [List.intercalate_singleton, splitOnText_of_notMem (h piece List.mem_cons_self)]
    | cons next pieces =>
      rw [List.intercalate_cons_cons, splitOnText_append (h piece List.mem_cons_self),
        ih (fun p hp => h p (List.mem_cons_of_mem piece hp)) (List.cons_ne_nil _ _)]

theorem splitOnText_intercalate_append {c : Char} {sep : List Char} {pieces : List (List Char)}
    (h : ∀ piece ∈ pieces, c ∉ piece) (hne : pieces ≠ []) (rest : List Char) :
    splitOnText (c :: sep) ((c :: sep).intercalate pieces ++ (c :: sep) ++ rest) =
      pieces ++ splitOnText (c :: sep) rest := by
  induction pieces with
  | nil => exact absurd rfl hne
  | cons piece pieces ih =>
    have hpiece : c ∉ piece := h piece List.mem_cons_self
    cases pieces with
    | nil => rw [List.intercalate_singleton, splitOnText_append hpiece, List.singleton_append]
    | cons next pieces =>
      have hrest := ih (fun p hp => h p (List.mem_cons_of_mem piece hp)) (List.cons_ne_nil _ _)
      rw [List.intercalate_cons_cons, List.append_assoc, List.append_assoc,
        splitOnText_append hpiece, ← List.append_assoc, hrest]
      rfl

private theorem cutFrom?_eq (pattern seen s : List Char) :
    cutFrom? pattern seen s =
      (cut? pattern s).map fun parts => (seen.reverse ++ parts.1, parts.2) := by
  induction s generalizing seen with
  | nil =>
    cases pattern with
    | nil => simp [cut?, cutFrom?]
    | cons p pattern => rfl
  | cons c s ih =>
    rw [cut?, cutFrom?, cutFrom?]
    split
    · simp
    · rw [ih, ih [c], Option.map_map]
      simp [Function.comp_def]

theorem cut?_cons {pattern s : List Char} {c : Char} (h : startsWith pattern (c :: s) = false) :
    cut? pattern (c :: s) = (cut? pattern s).map fun parts => (c :: parts.1, parts.2) := by
  rw [cut?, cutFrom?]
  rw [startsWith, Option.isSome_eq_false_iff, Option.isNone_iff_eq_none] at h
  rw [h]
  exact cutFrom?_eq pattern [c] s

theorem not_isInfix_of_notMem {pattern s : List Char} {c : Char} (hc : c ∈ pattern) (h : c ∉ s) :
    ¬ pattern <:+: s := fun hin =>
  h (hin.subset hc)

theorem cut?_eq_none {pattern s : List Char} (hne : pattern ≠ []) (h : ¬ pattern <:+: s) :
    cut? pattern s = none := by
  induction s with
  | nil =>
    cases pattern with
    | nil => exact absurd rfl hne
    | cons p pattern => rfl
  | cons c s ih =>
    have hstart : startsWith pattern (c :: s) = false := by
      rw [startsWith, Option.isSome_eq_false_iff, Option.isNone_iff_eq_none,
        Option.eq_none_iff_forall_ne_some]
      intro rest hrest
      exact h ⟨[], rest, by rw [List.nil_append, stripStart?_eq_some_iff.mp hrest]⟩
    rw [cut?_cons hstart, ih fun hin => h (hin.trans (List.suffix_cons c s).isInfix)]
    rfl

theorem cut?_append {c : Char} {pattern s : List Char} (h : c ∉ s) (rest : List Char) :
    cut? (c :: pattern) (s ++ (c :: pattern) ++ rest) = some (s, rest) := by
  rw [List.append_assoc]
  induction s with
  | nil =>
    have hstart : stripStart? (c :: pattern) (c :: (pattern ++ rest)) = some rest :=
      stripStart?_eq_some_iff.mpr rfl
    rw [List.nil_append, List.cons_append, cut?, cutFrom?, hstart]
    rfl
  | cons d s ih =>
    obtain ⟨hd, hs⟩ := not_or.mp (mt List.mem_cons.mpr h)
    have hstart : startsWith (c :: pattern) (d :: (s ++ ((c :: pattern) ++ rest))) = false := by
      simp [startsWith, stripStart?, hd]
    rw [List.cons_append, cut?_cons hstart, ih hs, Option.map_some]

theorem eq_append_of_cut? {pattern s front rest : List Char}
    (h : cut? pattern s = some (front, rest)) : s = front ++ (pattern ++ rest) := by
  induction s generalizing front with
  | nil =>
    cases pattern with
    | nil =>
      cases h
      rfl
    | cons p pattern => cases h
  | cons c s ih =>
    cases hstart : stripStart? pattern (c :: s) with
    | some behind =>
      rw [cut?, cutFrom?, hstart] at h
      cases h
      rw [stripStart?_eq_some_iff.mp hstart]
      rfl
    | none =>
      rw [cut?_cons (by rw [startsWith, hstart]; rfl), Option.map_eq_some_iff] at h
      obtain ⟨⟨front, rest⟩, hcut, heq⟩ := h
      cases heq
      exact congrArg (List.cons c) (ih hcut)

/-- A text is cut at the pattern behind it if no occurrence starts in the text. -/
theorem cut?_append_of_not_isInfix {pattern s : List Char} (hne : pattern ≠ [])
    (h : ¬ pattern <:+: s ++ pattern.dropLast) (rest : List Char) :
    cut? pattern (s ++ (pattern ++ rest)) = some (s, rest) := by
  induction s with
  | nil =>
    obtain ⟨p, pattern, rfl⟩ := List.exists_cons_of_ne_nil hne
    have hstart : stripStart? (p :: pattern) (p :: (pattern ++ rest)) = some rest :=
      stripStart?_eq_some_iff.mpr rfl
    rw [List.nil_append, List.cons_append, cut?, cutFrom?, hstart]
    rfl
  | cons c s ih =>
    have hstart : startsWith pattern (c :: (s ++ (pattern ++ rest))) = false := by
      rw [← Bool.not_eq_true, startsWith, isSome_stripStart?_iff]
      intro hpattern
      -- What starts in front of the pattern ends before its last character.
      have hfront : c :: (s ++ pattern.dropLast) <+: c :: (s ++ (pattern ++ rest)) :=
        (List.prefix_append_right_inj (c :: s)).mpr
          ((List.dropLast_prefix pattern).trans (List.prefix_append pattern rest))
      have hlength : pattern.length ≤ (c :: (s ++ pattern.dropLast)).length := by
        rw [List.length_cons, List.length_append, List.length_dropLast]
        omega
      exact h (List.prefix_of_prefix_length_le hpattern hfront hlength).isInfix
    have hrest : ¬ pattern <:+: s ++ pattern.dropLast := fun hin =>
      h (hin.trans (List.suffix_cons c _).isInfix)
    rw [List.cons_append, cut?_cons hstart, ih hrest, Option.map_some]

theorem occurrences_of_cut?_eq_none {pattern s : List Char} (h : cut? pattern s = none) :
    occurrences pattern s = 0 := by
  rw [occurrences]
  induction s with
  | nil => rfl
  | cons c s ih =>
    rw [cut?, cutFrom?] at h
    split at h
    · cases h
    · rename_i hnone
      rw [cutFrom?_eq, Option.map_eq_none_iff] at h
      have hnot : ¬ startsWith pattern (c :: s) = true := by
        rw [startsWith, hnone]
        exact Bool.false_ne_true
      rw [countFrom, if_neg hnot]
      exact ih h

theorem cutLast?_eq_some {sep : Char} {s before after : List Char}
    (h : cutLast? sep s = some (before, after)) : s = before ++ sep :: after ∧ sep ∉ after := by
  have hcut := List.takeWhile_append_dropWhile (p := (· != sep)) (l := s.reverse)
  unfold cutLast? at h
  split at h
  · cases h
  · rename_i c rest hrest
    obtain ⟨rfl, rfl⟩ := Prod.mk.inj (Option.some.inj h)
    have hsep : c = sep := by
      have hhead := List.head?_dropWhile_not (· != sep) s.reverse
      rw [hrest] at hhead
      simpa using hhead
    constructor
    · rw [hrest, hsep] at hcut
      have hs := congrArg List.reverse hcut
      rw [List.reverse_reverse, List.reverse_append, List.reverse_cons, List.append_assoc,
        List.singleton_append] at hs
      exact hs.symm
    · intro hmem
      have := List.mem_takeWhile_imp (List.mem_reverse.mp hmem)
      simp at this

theorem notMem_of_cutLast?_eq_none {sep : Char} {s : List Char} (h : cutLast? sep s = none) :
    sep ∉ s := by
  unfold cutLast? at h
  split at h
  · rename_i hnil
    intro hmem
    have := List.dropWhile_eq_nil_iff.mp hnil sep (List.mem_reverse.mpr hmem)
    simp at this
  · cases h

theorem cutLast?_append {sep : Char} {after : List Char} (h : sep ∉ after) (before : List Char) :
    cutLast? sep (before ++ sep :: after) = some (before, after) := by
  have hrun : ∀ c ∈ after.reverse, (c != sep) = true := by
    intro c hc
    rw [bne_iff_ne]
    rintro rfl
    exact h (List.mem_reverse.mp hc)
  have hreverse : (before ++ sep :: after).reverse = after.reverse ++ sep :: before.reverse := by
    simp
  simp only [cutLast?, hreverse, List.dropWhile_append_of_pos hrun, List.takeWhile_append_of_pos hrun]
  simp

theorem lines_nil : lines [] = [] := rfl

theorem lines_of_notMem {s : List Char} (hne : s ≠ []) (h : '\n' ∉ s) : lines s = [s] := by
  have hfull : (!s.isEmpty) = true := by simpa using hne
  simp [lines, splitOn_of_notMem h, hfull]

private theorem lines_append_newline (s rest : List Char) :
    lines (s ++ '\n' :: rest) = (splitOn '\n' s).map cutReturn ++ lines rest := by
  have hne : splitOn '\n' rest ≠ [] := splitOn_ne_nil '\n' rest
  have hlast : (splitOn '\n' s ++ splitOn '\n' rest).getLast? = (splitOn '\n' rest).getLast? := by
    rw [List.getLast?_append, List.getLast?_eq_some_getLast hne, Option.some_or]
  simp only [lines, splitOn_append_cons, List.dropLast_append_of_ne_nil hne, hlast,
    List.map_append, List.append_assoc]

theorem lines_cons {line : List Char} (h : '\n' ∉ line) (rest : List Char) :
    lines (line ++ '\n' :: rest) = cutReturn line :: lines rest := by
  rw [lines_append_newline, splitOn_of_notMem h, List.map_singleton, List.singleton_append]

theorem lines_append {s : List Char} (h : s = [] ∨ s.getLast? = some '\n') (rest : List Char) :
    lines (s ++ rest) = lines s ++ lines rest := by
  rcases h with rfl | h
  · rw [List.nil_append, lines_nil, List.nil_append]
  · obtain ⟨front, rfl⟩ := List.getLast?_eq_some_iff.mp h
    rw [List.append_assoc, List.singleton_append, lines_append_newline, lines_append_newline,
      lines_nil, List.append_nil]

/-- A last line that ends in no line feed or carriage return is the same line with a line feed
behind it. -/
theorem lines_append_newline_of_getLast? {s : List Char} {c : Char} (hlast : s.getLast? = some c)
    (hnewline : c ≠ '\n') (hreturn : c ≠ '\r') (rest : List Char) :
    lines (s ++ '\n' :: rest) = lines s ++ lines rest := by
  by_cases hmem : '\n' ∈ s
  · obtain ⟨line, below, rfl, hline⟩ := List.eq_append_cons_of_mem hmem
    have hne : below ≠ [] := by
      rintro rfl
      rw [List.getLast?_concat, Option.some.injEq] at hlast
      exact hnewline hlast.symm
    obtain ⟨d, below, rfl⟩ := List.exists_cons_of_ne_nil hne
    have hbelow : (d :: below).getLast? = some c := by
      rw [List.getLast?_append, List.getLast?_cons_cons, List.getLast?_cons, Option.some_or] at hlast
      rw [List.getLast?_cons, hlast]
    have hlt : (d :: below).length < (line ++ '\n' :: d :: below).length := by
      simp only [List.length_append, List.length_cons]
      omega
    rw [List.append_assoc, List.cons_append, lines_cons hline, lines_cons hline,
      lines_append_newline_of_getLast? hbelow hnewline hreturn rest, List.cons_append]
  · have hne : s ≠ [] := by
      rintro rfl
      cases hlast
    have hcut : cutReturn s = s := by
      rw [cutReturn, hlast, if_neg (by simpa using hreturn)]
    rw [lines_cons hmem, lines_of_notMem hne hmem, hcut, List.singleton_append]
termination_by s.length

theorem length_lines {s : List Char} {c : Char} (hlast : s.getLast? = some c)
    (hnewline : c ≠ '\n') (hreturn : c ≠ '\r') : (lines s).length = s.count '\n' + 1 := by
  have hlines := lines_append_newline s []
  rw [lines_append_newline_of_getLast? hlast hnewline hreturn, lines_nil, List.append_nil,
    List.append_nil] at hlines
  rw [hlines, List.length_map, length_splitOn]

theorem cutReturn_isPrefix (line : List Char) : cutReturn line <+: line := by
  rw [cutReturn]
  split
  · exact List.dropLast_prefix line
  · exact List.prefix_rfl

theorem newline_notMem_of_mem_lines {s line : List Char} (h : line ∈ lines s) : '\n' ∉ line := by
  rw [lines, List.mem_append, List.mem_map] at h
  rcases h with ⟨piece, hpiece, rfl⟩ | h
  · intro hmem
    have hno := (of_mem_splitOn (List.dropLast_subset _ hpiece)).1
    exact hno ((cutReturn_isPrefix piece).subset hmem)
  · have hlast := (List.mem_filter.mp h).1
    exact (of_mem_splitOn (List.mem_of_getLast? (Option.mem_toList.mp hlast))).1

theorem dropWhile_eq_of_head?_ne {c : Char} {s : List Char} (h : s.head? ≠ some c) :
    s.dropWhile (· == c) = s := by
  cases s with
  | nil => rfl
  | cons d s =>
    have hd : d ≠ c := fun heq => h (congrArg some heq)
    exact List.dropWhile_cons_of_neg (by simpa using hd)

theorem takeWhile_ne_append (c : Char) (s rest : List Char) :
    (s ++ c :: rest).takeWhile (· != c) = s.takeWhile (· != c) := by
  rw [List.takeWhile_append]
  split
  · rename_i hlength
    rw [List.takeWhile_cons_of_neg (by simp), List.append_nil]
    exact ((List.takeWhile_prefix _).eq_of_length hlength).symm
  · rfl

section Runs

variable {p : Char → Bool} {run rest : List Char} (hrun : ∀ c ∈ run, p c = true)
  (hrest : ∀ c ∈ rest.head?, p c = false)
include hrun hrest

theorem takeWhile_append_of_head? : (run ++ rest).takeWhile p = run := by
  rw [List.takeWhile_append_of_pos hrun]
  cases rest with
  | nil => exact List.append_nil run
  | cons c rest => rw [List.takeWhile_cons_of_neg (by simp [hrest c rfl]), List.append_nil]

theorem dropWhile_append_of_head? : (run ++ rest).dropWhile p = rest := by
  rw [List.dropWhile_append_of_pos hrun]
  cases rest with
  | nil => rfl
  | cons c rest => exact List.dropWhile_cons_of_neg (by simp [hrest c rfl])

end Runs

theorem allBlank_eq_false {s : List Char} {c : Char} (hmem : c ∈ s) (hc : isBlank c = false) :
    allBlank s = false := by
  rw [allBlank, List.all_eq_false]
  exact ⟨c, hmem, by simp [hc]⟩

theorem skipBlanks_suffix (s : List Char) : skipBlanks s <:+ s := List.dropWhile_suffix isBlank

theorem cutBlanks_isPrefix (s : List Char) : cutBlanks s <+: s := by
  have h := List.reverse_prefix.mpr (List.dropWhile_suffix isBlank (l := s.reverse))
  rwa [List.reverse_reverse] at h

theorem skipBlanks_append {s : List Char} (h : skipBlanks s ≠ []) (t : List Char) :
    skipBlanks (s ++ t) = skipBlanks s ++ t := by
  rw [skipBlanks] at h
  rw [skipBlanks, List.dropWhile_append, if_neg (by simpa using h), skipBlanks]

theorem skipBlanks_isPrefix {s t : List Char} (h : s <+: t) : skipBlanks s <+: skipBlanks t := by
  obtain ⟨rest, rfl⟩ := h
  by_cases hnil : skipBlanks s = []
  · rw [hnil]
    exact List.nil_prefix
  · rw [skipBlanks_append hnil]
    exact List.prefix_append _ _

theorem cutBlanks_append {s : List Char} (h : ∀ c ∈ s.getLast?, isBlank c = false)
    (t : List Char) :
    cutBlanks (s ++ t) = s ++ cutBlanks t := by
  rw [← List.head?_reverse] at h
  have hs : s.reverse.dropWhile isBlank = s.reverse := by
    cases hlast : s.reverse with
    | nil => rfl
    | cons c front =>
      rw [hlast] at h
      exact List.dropWhile_cons_of_neg (by simp [h c rfl])
  rw [cutBlanks, List.reverse_append, List.dropWhile_append]
  split
  · rename_i hblank
    rw [hs, List.reverse_reverse, cutBlanks, List.isEmpty_iff.mp hblank, List.reverse_nil,
      List.append_nil]
  · rw [List.reverse_append, List.reverse_reverse, cutBlanks]

theorem head?_trim {s : List Char} {c : Char} (h : (trim s).head? = some c) :
    isBlank c = false := by
  obtain ⟨rest, hrest⟩ := cutBlanks_isPrefix (skipBlanks s)
  have hhead := List.head?_dropWhile_not isBlank s
  rw [trim] at h
  rw [← skipBlanks, ← hrest, List.head?_append, h, Option.some_or] at hhead
  simpa using hhead

theorem getLast?_trim {s : List Char} {c : Char} (h : (trim s).getLast? = some c) :
    isBlank c = false := by
  have hlast := List.head?_dropWhile_not isBlank (skipBlanks s).reverse
  rw [trim, cutBlanks, List.getLast?_reverse] at h
  rw [h] at hlast
  simpa using hlast

theorem trim_cons {c : Char} (hc : isBlank c = false) (s : List Char) :
    trim (c :: s) = c :: cutBlanks s := by
  have hskip : skipBlanks (c :: s) = c :: s := List.dropWhile_cons_of_neg (by simp [hc])
  have hlast : ∀ d ∈ [c].getLast?, isBlank d = false := by simpa using hc
  rw [trim, hskip]
  exact cutBlanks_append hlast s

theorem trim_eq_skipBlanks {s : List Char} (h : ∀ c ∈ s.getLast?, isBlank c = false) :
    trim s = skipBlanks s := by
  have hlast : ∀ c ∈ (skipBlanks s).getLast?, isBlank c = false := by
    intro c hc
    obtain ⟨front, hfront⟩ := skipBlanks_suffix s
    apply h c
    rw [← hfront, List.getLast?_append, hc, Option.some_or]
    rfl
  have hcut := cutBlanks_append hlast []
  have hnil : cutBlanks [] = [] := rfl
  rwa [hnil, List.append_nil] at hcut

theorem trim_trim (s : List Char) : trim (trim s) = trim s := by
  rw [trim_eq_skipBlanks fun _ => getLast?_trim]
  cases hs : trim s with
  | nil => rfl
  | cons c rest =>
    have hc : isBlank c = false := head?_trim (congrArg List.head? hs)
    exact List.dropWhile_cons_of_neg (by simp [hc])

theorem trim_append {front : List Char} (hne : front ≠ [])
    (hfirst : ∀ c ∈ front.head?, isBlank c = false)
    (hlast : ∀ c ∈ front.getLast?, isBlank c = false) (back : List Char) :
    trim (front ++ back) = front ++ cutBlanks back := by
  have hskip : skipBlanks (front ++ back) = front ++ back := by
    obtain ⟨c, front, rfl⟩ := List.exists_cons_of_ne_nil hne
    exact List.dropWhile_cons_of_neg (by simp [hfirst c rfl])
  rw [trim, hskip, cutBlanks_append hlast]

theorem trim_of_forall_isBlank {s : List Char} (h : ∀ c ∈ s, isBlank c = false) : trim s = s := by
  by_cases hnil : s = []
  · rw [hnil]
    rfl
  · have happend := trim_append hnil (fun c hc => h c (List.mem_of_mem_head? hc))
      (fun c hc => h c (List.mem_of_mem_getLast? hc)) []
    rw [List.append_nil] at happend
    exact happend.trans (List.append_nil s)

theorem trim_blanks_append {blanks : List Char} (h : ∀ c ∈ blanks, isBlank c = true)
    (s : List Char) : trim (blanks ++ s) = trim s := by
  rw [trim, skipBlanks, List.dropWhile_append_of_pos h, trim, skipBlanks]

private theorem trim_eq_nil {blanks : List Char} (h : ∀ c ∈ blanks, isBlank c = true) :
    trim blanks = [] := by
  have hblanks := trim_blanks_append h []
  rw [List.append_nil] at hblanks
  exact hblanks

theorem trim_append_blanks {s blanks : List Char} (hfirst : ∀ c ∈ s.head?, isBlank c = false)
    (hlast : ∀ c ∈ s.getLast?, isBlank c = false) (h : ∀ c ∈ blanks, isBlank c = true) :
    trim (s ++ blanks) = s := by
  by_cases hne : s = []
  · rw [hne, List.nil_append, trim_eq_nil h]
  · have hcut : cutBlanks blanks = [] := by
      rw [cutBlanks, List.reverse_eq_nil_iff, List.dropWhile_eq_nil_iff]
      exact fun c hc => h c (List.mem_reverse.mp hc)
    rw [trim_append hne hfirst hlast, hcut, List.append_nil]

theorem words_append_of_isBlank {c : Char} (hc : isBlank c = true) (s rest : List Char) :
    words (s ++ c :: rest) = words s ++ words rest := by
  rw [words, words, words, splitWhen_eq_splitOnP, splitWhen_eq_splitOnP, splitWhen_eq_splitOnP,
    List.splitOnP_append_cons s rest hc, List.filter_append]

theorem words_blanks_append {blanks : List Char} (h : ∀ c ∈ blanks, isBlank c = true)
    (s : List Char) : words (blanks ++ s) = words s := by
  induction blanks with
  | nil => rfl
  | cons c blanks ih =>
    obtain ⟨hc, hblanks⟩ := List.forall_mem_cons.mp h
    have hcut := words_append_of_isBlank hc [] (blanks ++ s)
    rw [List.cons_append, ← ih hblanks]
    exact hcut

theorem words_of_forall_isBlank {word : List Char} (hne : word ≠ [])
    (h : ∀ c ∈ word, isBlank c = false) : words word = [word] := by
  rw [words, splitWhen_eq_splitOnP, List.splitOnP_eq_singleton h,
    List.filter_cons_of_pos (by simpa using hne), List.filter_nil]

theorem of_mem_words {s word : List Char} (h : word ∈ words s) :
    word ≠ [] ∧ ∀ c ∈ word, isBlank c = false := by
  rw [words, List.mem_filter] at h
  exact ⟨by simpa using h.2, of_mem_splitWhen h.1⟩

theorem trim_isInfix (s : List Char) : trim s <:+: s :=
  (cutBlanks_isPrefix (skipBlanks s)).isInfix.trans (skipBlanks_suffix s).isInfix

end RepoGraph.Text
