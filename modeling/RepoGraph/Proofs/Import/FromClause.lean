import RepoGraph.Import.JavaScript
import RepoGraph.Proofs.Text.Search

/-!
# The module of an import

A line with at most one quote names no module. A line with two names what stands between them,
whether it is read as a whole statement or searched for its `from` clause.
-/

namespace RepoGraph

open Text

namespace Text

private theorem quoted?_eq {q q' : Char} (hq : isQuote q = true) (hq' : isQuote q' = true)
    {word : List Char} (hne : word ≠ []) (hword : ∀ c ∈ word, isQuote c = false)
    (rest : List Char) : quoted? (q :: (word ++ q' :: rest)) = some (word, rest) := by
  obtain ⟨c, word, rfl⟩ := List.exists_cons_of_ne_nil hne
  have hinside : ∀ d ∈ c :: word, (!isQuote d) = true := by
    intro d hd
    rw [hword d hd]
    rfl
  have hstop : (!isQuote q') = false := by
    rw [hq']
    rfl
  rw [quoted?, if_pos hq, List.takeWhile_append_of_pos hinside,
    List.dropWhile_append_of_pos hinside, List.takeWhile_cons_of_neg (by simp [hstop]),
    List.dropWhile_cons_of_neg (by simp [hstop]), List.append_nil]

private theorem two_le_countP_of_quoted? {s word rest : List Char}
    (h : quoted? s = some (word, rest)) :
    2 ≤ s.countP isQuote := by
  cases s with
  | nil => cases h
  | cons q s =>
    rw [quoted?] at h
    split at h
    · rename_i hq
      split at h
      · rename_i c found q' after htake hdrop
        have hq' : isQuote q' = true := by
          have hhead := List.head?_dropWhile_not (!isQuote ·) s
          rw [hdrop] at hhead
          simpa using hhead
        have hrest : 0 < s.countP isQuote := by
          apply List.countP_pos_iff.mpr
          refine ⟨q', (List.dropWhile_suffix (!isQuote ·)).subset ?_, hq'⟩
          rw [hdrop]
          exact List.mem_cons_self
        rw [List.countP_cons_of_pos hq]
        omega
      · cases h
    · cases h

private theorem quoted?_eq_none {s t : List Char} (hsuffix : t <:+ s) (h : s.countP isQuote ≤ 1) :
    quoted? t = none := by
  rw [Option.eq_none_iff_forall_ne_some]
  rintro ⟨word, rest⟩ hquoted
  have htwo := two_le_countP_of_quoted? hquoted
  have hle := hsuffix.sublist.countP_le (p := isQuote)
  omega

end Text

namespace Import.JavaScript

private theorem fromStatement?_eq_none {keyword code : List Char} (h : code.countP isQuote ≤ 1) :
    fromStatement? keyword code = none := by
  rw [Option.eq_none_iff_forall_ne_some]
  intro module hmodule
  unfold fromStatement? at hmodule
  obtain ⟨rest, hrest, hmodule⟩ := Option.bind_eq_some_iff.mp hmodule
  obtain ⟨_, -, hmodule⟩ := Option.bind_eq_some_iff.mp hmodule
  obtain ⟨⟨word, after⟩, hquoted, -⟩ := Option.bind_eq_some_iff.mp hmodule
  have hsuffix : rest <:+ code :=
    (suffix_of_stripStart? hrest).trans (skipBlanks_suffix code)
  rw [quoted?_eq_none ((List.dropWhile_suffix _).trans hsuffix) h] at hquoted
  cases hquoted

private theorem bareImport?_eq_none {code : List Char} (h : code.countP isQuote ≤ 1) :
    bareImport? code = none := by
  rw [Option.eq_none_iff_forall_ne_some]
  intro module hmodule
  unfold bareImport? at hmodule
  obtain ⟨rest, hrest, hmodule⟩ := Option.bind_eq_some_iff.mp hmodule
  obtain ⟨⟨word, after⟩, hquoted, -⟩ := Option.bind_eq_some_iff.mp hmodule
  have hsuffix : rest <:+ code :=
    (suffix_of_stripStart? hrest).trans (skipBlanks_suffix code)
  rw [quoted?_eq_none ((skipBlanks_suffix rest).trans hsuffix) h] at hquoted
  cases hquoted

theorem statement?_eq_none {code : List Char} (h : code.countP isQuote ≤ 1) :
    statement? code = none := by
  rw [statement?, fromStatement?_eq_none h, bareImport?_eq_none h, fromStatement?_eq_none h]
  rfl

theorem fromClause?_eq_none {code : List Char} (h : code.countP isQuote ≤ 1) :
    fromClause? code = none := by
  rw [fromClause?, findAll_eq_nil]
  · rfl
  · intro before u hu
    rw [Option.eq_none_iff_forall_ne_some]
    intro found hfound
    unfold fromClauseAt? at hfound
    split at hfound
    · obtain ⟨rest, hrest, hquoted⟩ := Option.bind_eq_some_iff.mp hfound
      have hsuffix : skipBlanks rest <:+ code :=
        ((skipBlanks_suffix rest).trans (suffix_of_stripStart? hrest)).trans hu
      rw [quoted?_eq_none hsuffix h] at hquoted
      cases hquoted
    · cases hfound

private theorem callAt?_eq_none {function s : List Char} (before : Option Char)
    (h : ∀ t, '(' :: t <:+ s → t.countP isQuote ≤ 1) : callAt? function before s = none := by
  rw [Option.eq_none_iff_forall_ne_some]
  rintro ⟨module, after⟩ hcall
  unfold callAt? at hcall
  split at hcall
  · obtain ⟨rest, hrest, hcall⟩ := Option.bind_eq_some_iff.mp hcall
    obtain ⟨inside, hinside, hcall⟩ := Option.bind_eq_some_iff.mp hcall
    obtain ⟨⟨word, behind⟩, hquoted, -⟩ := Option.bind_eq_some_iff.mp hcall
    have hskip : skipBlanks rest = '(' :: inside := stripStart?_eq_some_iff.mp hinside
    have hparen : '(' :: inside <:+ s :=
      hskip ▸ (skipBlanks_suffix rest).trans (suffix_of_stripStart? hrest)
    rw [quoted?_eq_none (skipBlanks_suffix inside) (h inside hparen)] at hquoted
    cases hquoted
  · cases hcall

theorem calls_eq_nil {code : List Char} (function : List Char)
    (h : ∀ t, '(' :: t <:+ code → t.countP isQuote ≤ 1) : calls function code = [] := by
  apply findAll_eq_nil
  intro before u hu
  exact callAt?_eq_none before fun t ht => h t (ht.trans hu)

private theorem quoted?_skipBlanks_append {s : List Char} (hs : ∀ c ∈ s, isQuote c = false)
    (rest : List Char) : quoted? (skipBlanks (s ++ 'f' :: rest)) = none := by
  induction s with
  | nil => rfl
  | cons c s ih =>
    obtain ⟨hc, hs⟩ := List.forall_mem_cons.mp hs
    rw [List.cons_append, skipBlanks, List.dropWhile_cons]
    split
    · exact ih hs
    · rw [quoted?, hc, if_neg Bool.false_ne_true]

/-- The first `from` clause of a line with one module is the one in front of the module. -/
theorem fromClause?_eq {before module : List Char} {quote : Char}
    (hbefore : ∀ c ∈ before, isQuote c = false) (hlast : before.getLast? = some ' ')
    (hquote : isQuote quote = true) (hne : module ≠ [])
    (hmodule : ∀ c ∈ module, isQuote c = false) (after : List Char) :
    fromClause? (before ++ ("from ".toList ++ quote :: (module ++ quote :: after))) =
      some module := by
  have hclause : fromClauseAt? (some ' ') ("from ".toList ++ quote :: (module ++ quote :: after)) =
      some (module, after) := by
    have hstop : isBlank quote = false := by
      rw [isQuote, Bool.or_eq_true, beq_iff_eq, beq_iff_eq] at hquote
      rcases hquote with rfl | rfl <;> rfl
    have hskip : skipBlanks (' ' :: quote :: (module ++ quote :: after)) =
        quote :: (module ++ quote :: after) := by
      rw [skipBlanks, List.dropWhile_cons_of_pos (by rfl),
        List.dropWhile_cons_of_neg (by simp [hstop])]
    change (quoted? (skipBlanks (' ' :: quote :: (module ++ quote :: after)))) = _
    rw [hskip, quoted?_eq hquote hquote hne hmodule]
  rw [fromClause?, findAll_append, hlast, Option.some_or]
  · exact head?_findAll hclause (by simp)
  · intro previous u hu hsuffix
    rw [Option.eq_none_iff_forall_ne_some]
    intro found hfound
    unfold fromClauseAt? at hfound
    split at hfound
    · obtain ⟨rest, hrest, hfound⟩ := Option.bind_eq_some_iff.mp hfound
      rcases List.append_eq_append_iff.mp (stripStart?_eq_some_iff.mp hrest) with
        ⟨cut, hcut, -⟩ | ⟨inside, hinside, hrest⟩
      · -- The stretch would end within the word, but it ends with a blank.
        have hend : u.getLast? = some ' ' := by
          obtain ⟨front, rfl⟩ := hsuffix
          rwa [List.getLast?_append, List.getLast?_eq_some_getLast hu, Option.some_or,
            ← List.getLast?_eq_some_getLast hu] at hlast
        have hmem : ' ' ∈ "from".toList := by
          rw [hcut]
          exact List.mem_append_left cut (List.mem_of_getLast? hend)
        exact absurd hmem (by decide)
      · have hquoteless : ∀ c ∈ inside, isQuote c = false := by
          intro c hc
          apply hbefore c
          apply hsuffix.subset
          rw [hinside]
          exact List.mem_append_right _ hc
        rw [hrest] at hfound
        change quoted? (skipBlanks (inside ++ 'f' :: _)) = _ at hfound
        rw [quoted?_skipBlanks_append hquoteless] at hfound
        cases hfound
    · cases hfound

private theorem stripEnd?_from (inner : List Char) :
    stripEnd? "from".toList (cutBlanks (inner ++ " from ".toList)) = some (inner ++ [' ']) := by
  have hreverse : (inner ++ " from ".toList).reverse =
      ' ' :: 'm' :: 'o' :: 'r' :: 'f' :: ' ' :: inner.reverse := by simp
  have hcut : cutBlanks (inner ++ " from ".toList) =
      ('m' :: 'o' :: 'r' :: 'f' :: ' ' :: inner.reverse).reverse := by
    rw [cutBlanks, hreverse, List.dropWhile_cons_of_pos (by rfl),
      List.dropWhile_cons_of_neg (by decide)]
  have hstrip : stripStart? "from".toList.reverse
      ('m' :: 'o' :: 'r' :: 'f' :: ' ' :: inner.reverse) = some (' ' :: inner.reverse) :=
    stripStart?_eq_some_iff.mpr rfl
  rw [stripEnd?, hcut, List.reverse_reverse, hstrip, Option.map_some, List.reverse_cons,
    List.reverse_reverse]

private theorem fromStatement?_eq {c : Char} {word inner module : List Char} {quote : Char}
    (hc : isBlank c = false) (hinner : ∀ d ∈ inner, isQuote d = false ∧ d ≠ '\x60')
    (hquote : isQuote quote = true) (hne : module ≠ [])
    (hmodule : ∀ d ∈ module, isQuote d = false) (after : List Char) :
    fromStatement? (c :: word) (c :: word ++ ((' ' :: inner ++ " from ".toList) ++
      quote :: (module ++ quote :: after))) = some module := by
  have hword : ∀ d ∈ " from ".toList, (!(isQuote d || d == '\x60')) = true :=
    List.all_eq_true.mp (by decide)
  have hmarks : ∀ d ∈ ' ' :: inner ++ " from ".toList,
      (!(isQuote d || d == '\x60')) = true := by
    intro d hd
    rcases List.mem_append.mp hd with hd | hd
    · rcases List.mem_cons.mp hd with rfl | hd
      · rfl
      · obtain ⟨hq, htick⟩ := hinner d hd
        simp [hq, htick]
    · exact hword d hd
  have hmark : ¬ (!(isQuote quote || quote == '\x60')) = true := by simp [hquote]
  have hdrop : ∀ s, (quote :: s).dropWhile (fun d => !(isQuote d || d == '\x60')) = quote :: s :=
    fun s => List.dropWhile_cons_of_neg hmark
  have htake : ∀ s, (quote :: s).takeWhile (fun d => !(isQuote d || d == '\x60')) = [] :=
    fun s => List.takeWhile_cons_of_neg hmark
  have hskip : ∀ s, skipBlanks (c :: word ++ s) = c :: word ++ s := fun s =>
    List.dropWhile_cons_of_neg (by simp [hc])
  have hblank : ∀ s, blanks? (' ' :: inner ++ s) = some (skipBlanks (inner ++ s)) := fun s => rfl
  have hlast : startsWord (' ' :: inner ++ [' ']).getLast? = true := by
    rw [List.getLast?_concat]
    rfl
  unfold fromStatement?
  rw [hskip, stripStart?_eq_some_iff.mpr rfl]
  simp only [Option.bind_eq_bind, Option.bind_some, List.append_assoc, hblank]
  rw [← List.append_assoc, List.dropWhile_append_of_pos hmarks, List.takeWhile_append_of_pos hmarks,
    hdrop, htake, List.append_nil, quoted?_eq hquote hquote hne hmodule, Option.bind_some]
  dsimp only
  rw [stripEnd?_from, Option.bind_some, if_pos hlast]

theorem statement?_eq {keyword inner module : List Char} {quote : Char}
    (hkeyword : keyword = "import".toList ∨ keyword = "export".toList)
    (hinner : ∀ d ∈ inner, isQuote d = false ∧ d ≠ '\x60') (hquote : isQuote quote = true)
    (hne : module ≠ []) (hmodule : ∀ d ∈ module, isQuote d = false) (after : List Char) :
    statement? (keyword ++ ((' ' :: inner ++ " from ".toList) ++
      quote :: (module ++ quote :: after))) = some module := by
  rcases hkeyword with rfl | rfl
  · have hread : fromStatement? "import".toList ("import".toList ++
        ((' ' :: inner ++ " from ".toList) ++ quote :: (module ++ quote :: after))) = some module :=
      fromStatement?_eq (c := 'i') (by decide) hinner hquote hne hmodule after
    rw [statement?, hread, Option.some_or]
  · have hread : fromStatement? "export".toList ("export".toList ++
        ((' ' :: inner ++ " from ".toList) ++ quote :: (module ++ quote :: after))) = some module :=
      fromStatement?_eq (c := 'e') (by decide) hinner hquote hne hmodule after
    have himport : ∀ s, fromStatement? "import".toList ("export".toList ++ s) = none := fun s => rfl
    have hbare : ∀ s, bareImport? ("export".toList ++ s) = none := fun s => rfl
    rw [statement?, hread, himport, hbare, Option.none_or, Option.none_or]

end Import.JavaScript
end RepoGraph
