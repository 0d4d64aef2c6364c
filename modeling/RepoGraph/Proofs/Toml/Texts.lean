import RepoGraph.Proofs.Text.Digits
import RepoGraph.Proofs.Text.Pieces
import RepoGraph.Toml.Text
import RepoGraph.Toml.Writer

/-!
# The texts of written TOML

A text is read back from each of the forms in which it may be written, whatever follows but a quote.
-/

namespace RepoGraph.Toml

open Text

private theorem charWith?_toNat (c : Char) : charWith? c.toNat = some c := by
  have hvalid : c.toNat.isValidChar := c.valid
  rw [charWith?, if_pos hvalid, Char.ofNat_toNat]

theorem escape?_control {c : Char} (hc : c.toNat < 0x100) (s : List Char) :
    escape? ('u' :: '0' :: '0' :: upperHexDigit (c.toNat / 16) :: upperHexDigit (c.toNat % 16) ::
      s) = some (c, s) := by
  have hzero : hexValue? '0' = some 0 := by decide
  have hhigh := hexValue?_toUpper_hexDigit (n := c.toNat / 16) (by omega)
  have hlow := hexValue?_toUpper_hexDigit (n := c.toNat % 16) (by omega)
  have hnumber : hexNumber? 0
      ['0', '0', upperHexDigit (c.toNat / 16), upperHexDigit (c.toNat % 16)] = some c.toNat := by
    simp only [hexNumber?, upperHexDigit, hzero, hhigh, hlow, Option.bind_some]
    congr 1
    omega
  simp [escape?, digitCount?, numericEscape?, hexPrefix?, hnumber, charWith?_toNat]

private theorem writeChar_cases (multiline : Bool) (c : Char) :
    (∃ more, writeChar multiline c = '\\' :: more ∧
        ∀ s, hiddenBreak? (more ++ s) = none ∧ escape? (more ++ s) = some (c, s)) ∨
      (writeChar multiline c = [c] ∧ c ≠ '\\' ∧ c ≠ '\r' ∧
        (isPrintable c = true ∧ c ≠ '\n' ∨ multiline = true ∧ c = '\n')) := by
  unfold writeChar
  split
  · rename_i hc
    subst hc
    exact Or.inl ⟨['b'], rfl, fun s => ⟨rfl, rfl⟩⟩
  split
  · rename_i hc
    subst hc
    exact Or.inl ⟨['t'], rfl, fun s => ⟨rfl, rfl⟩⟩
  split
  · rename_i hc
    subst hc
    cases multiline with
    | true => exact Or.inr ⟨rfl, by decide, by decide, Or.inr ⟨rfl, rfl⟩⟩
    | false => exact Or.inl ⟨['n'], rfl, fun s => ⟨rfl, rfl⟩⟩
  split
  · rename_i hc
    subst hc
    exact Or.inl ⟨['f'], rfl, fun s => ⟨rfl, rfl⟩⟩
  split
  · rename_i hc
    subst hc
    exact Or.inl ⟨['r'], rfl, fun s => ⟨rfl, rfl⟩⟩
  split
  · rename_i hc
    subst hc
    exact Or.inl ⟨['\\'], rfl, fun s => ⟨rfl, rfl⟩⟩
  split
  · rename_i hcontrol
    refine Or.inl ⟨_, rfl, ?_⟩
    intro s
    exact ⟨rfl, escape?_control (by omega) s⟩
  · rename_i _ htab hnewline _ hreturn hbackslash hplain
    obtain ⟨hlow, hdelete⟩ := not_or.mp hplain
    have hprintable : isPrintable c = true := by
      simp only [isPrintable, Bool.or_eq_true, Bool.and_eq_true, decide_eq_true_eq, bne_iff_ne]
      exact Or.inl ⟨Nat.not_lt.mp hlow, hdelete⟩
    exact Or.inr ⟨rfl, hbackslash, hreturn, Or.inl ⟨hprintable, hnewline⟩⟩

private theorem writeChars_cons_of_ne {c : Char} (h : c ≠ '"') (multiline : Bool) (free : Nat)
    (s : List Char) : writeChars multiline free (c :: s) =
      writeChar multiline c ++ writeChars multiline (if multiline then 2 else 0) s := by
  simp [writeChars, h]

private theorem basicFrom?_escape {s rest : List Char} {c : Char} (h : escape? s = some (c, rest))
    (done : List Char) : basicFrom? done ('\\' :: s) = basicFrom? (c :: done) rest := by
  rw [basicFrom?, if_neg (by decide), if_pos rfl]
  split
  · rename_i d more heq
    rw [h] at heq
    cases heq
    rfl
  · rename_i heq
    rw [h] at heq
    cases heq

private theorem basicFrom?_writeChars (s done rest : List Char) :
    basicFrom? done (writeChars false 0 s ++ '"' :: rest) =
      some (String.ofList (done.reverse ++ s), rest) := by
  induction s generalizing done with
  | nil =>
    rw [writeChars, List.nil_append, basicFrom?, if_pos rfl, List.append_nil]
  | cons c s ih =>
    have hstep : basicFrom? done (writeChars false 0 (c :: s) ++ '"' :: rest) =
        basicFrom? (c :: done) (writeChars false 0 s ++ '"' :: rest) := by
      by_cases hquote : c = '"'
      · subst hquote
        change basicFrom? done ('\\' :: '"' :: (writeChars false 0 s ++ '"' :: rest)) = _
        exact basicFrom?_escape rfl done
      · rw [writeChars_cons_of_ne hquote, List.append_assoc]
        rcases writeChar_cases false c with ⟨more, heq, hmore⟩ | ⟨heq, hback, -, hc⟩
        · rw [heq]
          exact basicFrom?_escape (hmore _).2 done
        · have hprintable : isPrintable c = true := by
            rcases hc with hc | ⟨hc, -⟩
            · exact hc.1
            · cases hc
          rw [heq, List.singleton_append, basicFrom?, if_neg hquote, if_neg hback,
            if_pos hprintable]
          rfl
    rw [hstep, ih, List.reverse_cons, List.append_assoc, List.singleton_append]

private theorem isPrintable_of_not_needsEscape {c : Char} (h : needsEscape c = false)
    (hc : c ≠ '\n') :
    isPrintable c = true := by
  by_cases htab : c = '\t'
  · rw [htab]
    rfl
  · simp only [needsEscape, Bool.or_eq_false_iff, Bool.and_eq_false_iff, decide_eq_false_iff_not,
      bne_eq_false_iff_eq, beq_eq_false_iff_ne, htab, hc, or_false] at h
    simp only [isPrintable, Bool.or_eq_true, Bool.and_eq_true, decide_eq_true_eq, bne_iff_ne]
    exact Or.inl ⟨Nat.not_lt.mp h.1, h.2⟩

private theorem literal?_append {s : List Char} (h : fitsLiteral s = true) (rest : List Char) :
    literal? (s ++ '\'' :: rest) = some (String.ofList s, rest) := by
  simp only [fitsLiteral, Bool.and_eq_true, Bool.not_eq_true', List.any_eq_false,
    List.contains_eq_mem, decide_eq_false_iff_not] at h
  obtain ⟨⟨hescape, hquote⟩, hnewline⟩ := h
  have hinside : ∀ c ∈ s, (c != '\'') = true := by
    rintro c hc
    simp only [bne_iff_ne]
    rintro rfl
    exact hquote hc
  have hprintable : s.all isPrintable = true := by
    rw [List.all_eq_true]
    intro c hc
    apply isPrintable_of_not_needsEscape (by simpa using hescape c hc)
    rintro rfl
    exact hnewline hc
  have hdrop : (s ++ '\'' :: rest).dropWhile (· != '\'') = '\'' :: rest := by
    rw [List.dropWhile_append_of_pos hinside]
    simp
  have htake : (s ++ '\'' :: rest).takeWhile (· != '\'') = s := by
    rw [List.takeWhile_append_of_pos hinside]
    simp
  rw [literal?, hdrop, htake]
  simp [hprintable]

section Quotes

variable {quote : Char} {s : List Char}

/-- A text either is a short run of quotes, which the closing ones end, or does not end where it
starts. -/
theorem quotes_cases (rest : List Char) (h : ¬ [quote, quote, quote] <+: s) :
    (s.length ≤ 2 ∧ ∀ c ∈ s, c = quote) ∨
      stripStart? [quote, quote, quote] (s ++ quote :: quote :: quote :: rest) = none := by
  rw [or_iff_not_imp_right, ← ne_eq, Option.ne_none_iff_exists']
  rintro ⟨more, hmore⟩
  rw [stripStart?_eq_some_iff] at hmore
  match s with
  | [] => simp
  | [c] =>
    have hc : c = quote := by simpa using (List.cons.inj hmore).1
    simp [hc]
  | [c, d] =>
    have hc : c = quote := by simpa using (List.cons.inj hmore).1
    have hd : d = quote := by simpa using (List.cons.inj (List.cons.inj hmore).2).1
    simp [hc, hd]
  | c :: d :: e :: s =>
    simp only [List.cons_append, List.nil_append, List.cons.injEq] at hmore
    obtain ⟨rfl, rfl, rfl, -⟩ := hmore
    exact absurd (List.prefix_append [_, _, _] s) h

private theorem stripStart?_quotes (hlen : s.length ≤ 2) (hs : ∀ c ∈ s, c = quote)
    (rest : List Char) :
    stripStart? [quote, quote, quote] (s ++ quote :: quote :: quote :: rest) =
      some (s ++ rest) := by
  rw [stripStart?_eq_some_iff]
  match s, hlen, hs with
  | [], _, _ => rfl
  | [c], _, hs => simp [hs c]
  | [c, d], _, hs => simp [hs c, hs d]

private theorem closeMultiline_append (hlen : s.length ≤ 2) (hs : ∀ c ∈ s, c = quote)
    {rest : List Char} (hrest : rest.head? ≠ some quote) (done : List Char) :
    closeMultiline quote done (s ++ rest) = (String.ofList (done.reverse ++ s), rest) := by
  have hstop : ∀ n, (rest.take n).takeWhile (· == quote) = [] := by
    intro n
    cases rest with
    | nil => simp
    | cons c rest =>
      cases n with
      | zero => rfl
      | succ n =>
        have hc : (c == quote) = false := by simpa using hrest
        rw [List.take_succ_cons, List.takeWhile_cons, hc]
        rfl
  match s, hlen, hs with
  | [], _, _ => simp [closeMultiline, hstop]
  | [c], _, hs => simp [closeMultiline, hstop, hs c]
  | [c, d], _, hs => simp [closeMultiline, hs c, hs d]

end Quotes

theorem newline?_cons_eq_none {c : Char} (hnewline : c ≠ '\n') (hreturn : c ≠ '\r')
    (s : List Char) : newline? (c :: s) = none := by
  unfold newline?
  split
  · rename_i hcons
    exact absurd (List.cons.inj hcons).1 hnewline
  · rename_i hcons
    exact absurd (List.cons.inj hcons).1 hreturn
  · rfl

private theorem multilineBasicFrom?_eq (done s : List Char) :
    multilineBasicFrom? done s =
      match stripStart? ['"', '"', '"'] s with
      | some rest => some (closeMultiline '"' done rest)
      | none =>
        match newline? s with
        | some rest => multilineBasicFrom? ('\n' :: done) rest
        | none =>
          match s with
          | [] => none
          | c :: s =>
            if c = '\\' then
              match hiddenBreak? s with
              | some rest => multilineBasicFrom? done rest
              | none => (escape? s).bind fun (d, rest) => multilineBasicFrom? (d :: done) rest
            else if isPrintable c then multilineBasicFrom? (c :: done) s
            else none := by
  rw [multilineBasicFrom?]
  cases hclose : stripStart? ['"', '"', '"'] s with
  | some rest => rfl
  | none =>
    dsimp only
    split
    · rename_i hnewline
      simp only [hnewline]
    · rename_i hnewline
      simp only [hnewline]
      cases s with
      | nil => rfl
      | cons c s =>
        dsimp only
        split
        · split
          · rename_i hbreak
            simp only [hbreak]
          · rename_i hbreak
            simp only [hbreak]
            split
            · rename_i hescape
              simp only [hescape, Option.bind_some]
            · rename_i hescape
              simp only [hescape, Option.bind_none]
        · rfl

private theorem not_prefix_writeChars (free : Nat) (s : List Char) (hfree : free ≤ 2) :
    ¬ ['"', '"', '"'] <+: writeChars true free s := by
  -- The induction goes by the quotes that are still free.
  suffices hrun : ¬ List.replicate (free + 1) '"' <+: writeChars true free s by
    intro hprefix
    apply hrun
    have hlength : (List.replicate (free + 1) '"').length ≤ 3 := by
      rw [List.length_replicate]
      omega
    have hreplicate : List.replicate (free + 1) '"' <+: List.replicate 3 '"' :=
      List.prefix_replicate_iff.mpr ⟨hlength, by simp⟩
    exact hreplicate.trans hprefix
  clear hfree
  induction s generalizing free with
  | nil => simp [writeChars]
  | cons c s ih =>
    by_cases hquote : c = '"'
    · subst hquote
      cases free with
      | zero => simp [writeChars]
      | succ left => simpa [writeChars, List.replicate_succ] using ih left
    · rw [writeChars_cons_of_ne hquote]
      rcases writeChar_cases true c with ⟨more, heq, -⟩ | ⟨heq, -⟩
      · simp [heq, List.replicate_succ]
      · simp [heq, List.replicate_succ, Ne.symm hquote]

private theorem eq_of_writeChars_quotes {free : Nat} {s : List Char}
    (h : ∀ c ∈ writeChars true free s, c = '"') : writeChars true free s = s := by
  induction s generalizing free with
  | nil => rfl
  | cons c s ih =>
    by_cases hquote : c = '"'
    · subst hquote
      cases free with
      | zero => simp [writeChars] at h
      | succ left =>
        rw [writeChars, if_pos rfl] at h ⊢
        rw [ih (fun c hc => h c (List.mem_cons_of_mem _ hc))]
    · rw [writeChars_cons_of_ne hquote] at h
      rcases writeChar_cases true c with ⟨more, heq, -⟩ | ⟨heq, -⟩
      · simp [heq] at h
      · simp [heq, hquote] at h

private theorem multilineBasicFrom?_writeChars {free : Nat} (hfree : free ≤ 2) (s done : List Char)
    {rest : List Char} (hrest : rest.head? ≠ some '"') :
    multilineBasicFrom? done (writeChars true free s ++ '"' :: '"' :: '"' :: rest) =
      some (String.ofList (done.reverse ++ s), rest) := by
  induction s generalizing free done with
  | nil =>
    rw [multilineBasicFrom?_eq]
    exact congrArg some (closeMultiline_append (s := []) (by simp) (by simp) hrest done)
  | cons c s ih =>
    have hdone : String.ofList (done.reverse ++ c :: s) =
        String.ofList ((c :: done).reverse ++ s) := by simp
    rcases quotes_cases rest (not_prefix_writeChars free (c :: s) hfree) with
      ⟨hlen, hquotes⟩ | hopen
    · rw [multilineBasicFrom?_eq, stripStart?_quotes hlen hquotes rest]
      dsimp only
      rw [closeMultiline_append hlen hquotes hrest, eq_of_writeChars_quotes hquotes]
    · rw [multilineBasicFrom?_eq, hopen, hdone]
      dsimp only
      by_cases hquote : c = '"'
      · subst hquote
        cases free with
        | zero => exact @ih 2 (Nat.le_refl 2) ('"' :: done)
        | succ left => exact ih (by omega) ('"' :: done)
      · rw [writeChars_cons_of_ne hquote, List.append_assoc, if_pos rfl]
        rcases writeChar_cases true c with ⟨more, heq, hmore⟩ | ⟨heq, hback, hreturn, hc⟩
        · obtain ⟨hbreak, hescape⟩ :=
            hmore (writeChars true 2 s ++ '"' :: '"' :: '"' :: rest)
          rw [heq, List.cons_append]
          simp only [newline?, if_true, hbreak, hescape, Option.bind_some]
          exact @ih 2 (Nat.le_refl 2) (c :: done)
        · rw [heq, List.singleton_append]
          rcases hc with ⟨hprintable, hnewline⟩ | ⟨-, rfl⟩
          · rw [newline?_cons_eq_none hnewline hreturn]
            dsimp only
            rw [if_neg hback, if_pos hprintable]
            exact @ih 2 (Nat.le_refl 2) (c :: done)
          · exact @ih 2 (Nat.le_refl 2) ('\n' :: done)

private theorem multilineLiteralFrom?_eq (done s : List Char) :
    multilineLiteralFrom? done s =
      match stripStart? ['\'', '\'', '\''] s with
      | some rest => some (closeMultiline '\'' done rest)
      | none =>
        match newline? s with
        | some rest => multilineLiteralFrom? ('\n' :: done) rest
        | none =>
          match s with
          | [] => none
          | c :: s => if isPrintable c then multilineLiteralFrom? (c :: done) s else none := by
  rw [multilineLiteralFrom?]
  cases hclose : stripStart? ['\'', '\'', '\''] s with
  | some rest => rfl
  | none =>
    dsimp only
    split
    · rename_i hnewline
      simp only [hnewline]
    · rename_i hnewline
      simp only [hnewline]
      cases s with
      | nil => rfl
      | cons c s => rfl

private theorem multilineLiteralFrom?_append {s : List Char}
    (hescape : ∀ c ∈ s, needsEscape c = false)
    (hrun : ¬ ['\'', '\'', '\''] <:+: s) (done : List Char) {rest : List Char}
    (hrest : rest.head? ≠ some '\'') :
    multilineLiteralFrom? done (s ++ '\'' :: '\'' :: '\'' :: rest) =
      some (String.ofList (done.reverse ++ s), rest) := by
  induction s generalizing done with
  | nil =>
    rw [multilineLiteralFrom?_eq]
    exact congrArg some (closeMultiline_append (s := []) (by simp) (by simp) hrest done)
  | cons c s ih =>
    have hdone : String.ofList (done.reverse ++ c :: s) =
        String.ofList ((c :: done).reverse ++ s) := by simp
    rcases quotes_cases rest (mt List.IsPrefix.isInfix hrun) with
      ⟨hlen, hquotes⟩ | hopen
    · rw [multilineLiteralFrom?_eq, stripStart?_quotes hlen hquotes rest]
      dsimp only
      rw [closeMultiline_append hlen hquotes hrest]
    · rw [multilineLiteralFrom?_eq, hopen, hdone]
      have hnext := ih (fun d hd => hescape d (List.mem_cons_of_mem c hd))
        (fun h => hrun (h.trans (List.suffix_cons c s).isInfix)) (c :: done)
      have hc := hescape c List.mem_cons_self
      by_cases hnewline : c = '\n'
      · subst hnewline
        exact hnext
      · have hreturn : c ≠ '\r' := by
          rintro rfl
          cases hc
        rw [List.cons_append, newline?_cons_eq_none hnewline hreturn]
        dsimp only
        rw [if_pos (isPrintable_of_not_needsEscape hc hnewline)]
        exact hnext

private theorem le_longestRunFrom (c : Char) (current longest : Nat) (s : List Char) :
    longest ≤ longestRunFrom c current longest s := by
  induction s generalizing current longest with
  | nil => exact Nat.le_refl _
  | cons d s ih =>
    rw [longestRunFrom]
    split
    · exact (Nat.le_max_left _ _).trans (ih _ _)
    · exact ih _ _

private theorem three_le_longestRun {c : Char} {s : List Char} (h : [c, c, c] <:+: s) :
    3 ≤ longestRun c s := by
  obtain ⟨before, after, rfl⟩ := h
  suffices hfrom : ∀ current longest,
      3 ≤ longestRunFrom c current longest (before ++ [c, c, c] ++ after) from hfrom 0 0
  intro current longest
  induction before generalizing current longest with
  | nil =>
    simp only [List.nil_append, List.cons_append, longestRunFrom, if_true]
    have hle := le_longestRunFrom c (current + 1 + 1 + 1) (max (max (max longest (current + 1))
      (current + 1 + 1)) (current + 1 + 1 + 1)) after
    omega
  | cons d before ih =>
    rw [List.cons_append, List.cons_append, longestRunFrom]
    split
    · exact ih _ _
    · exact ih _ _

private theorem skipNewline_openingBreak {s w rest : List Char}
    (hfirst : '\n' ∉ s → newline? (w ++ rest) = none) :
    skipNewline (openingBreak s ++ w ++ rest) = w ++ rest := by
  rw [openingBreak]
  split
  · rfl
  · rename_i hnewline
    rw [skipNewline, List.nil_append, hfirst (by simpa using hnewline), Option.getD_none]

private theorem newline?_writeChars {s : List Char} (h : '\n' ∉ s) (rest : List Char) :
    newline? (writeChars true 2 s ++ '"' :: rest) = none := by
  cases s with
  | nil => rfl
  | cons c s =>
    by_cases hquote : c = '"'
    · subst hquote
      rfl
    · rw [writeChars_cons_of_ne hquote]
      rcases writeChar_cases true c with ⟨more, heq, -⟩ | ⟨heq, -, hreturn, -⟩
      · rw [heq]
        rfl
      · rw [heq]
        apply newline?_cons_eq_none _ hreturn
        rintro rfl
        exact h List.mem_cons_self

private theorem head?_writeChars_ne (s : List Char) : (writeChars false 0 s).head? ≠ some '"' := by
  cases s with
  | nil => simp [writeChars]
  | cons c s =>
    by_cases hquote : c = '"'
    · simp [writeChars, hquote]
    · rw [writeChars_cons_of_ne hquote]
      rcases writeChar_cases false c with ⟨more, heq, -⟩ | ⟨heq, -⟩
      · simp [heq]
      · simp [heq, hquote]

private theorem stripStart?_three_eq_none {quote : Char} {s : List Char} (h : s.head? ≠ some quote ∨
    ∃ t, s = quote :: t ∧ t.head? ≠ some quote) :
    stripStart? [quote, quote, quote] (quote :: s) = none := by
  rw [Option.eq_none_iff_forall_ne_some]
  intro rest hrest
  rw [stripStart?_eq_some_iff] at hrest
  cases hrest
  rcases h with h | ⟨t, ht, h⟩
  · exact h rfl
  · cases ht
    exact h rfl

private theorem text?_basic {s : List Char} (h : stripStart? ['"', '"', '"'] ('"' :: s) = none) :
    text? ('"' :: s) = basicFrom? [] s := by
  rw [text?, h]
  rfl

private theorem text?_literal {s : List Char}
    (h : stripStart? ['\'', '\'', '\''] ('\'' :: s) = none) :
    text? ('\'' :: s) = literal? s := by
  have hdouble : stripStart? ['"', '"', '"'] ('\'' :: s) = none := rfl
  rw [text?, hdouble]
  dsimp only
  rw [h]

private theorem text?_multilineBasic (s : List Char) :
    text? ('"' :: '"' :: '"' :: s) = multilineBasicFrom? [] (skipNewline s) := rfl

private theorem text?_multilineLiteral (s : List Char) :
    text? ('\'' :: '\'' :: '\'' :: s) = multilineLiteralFrom? [] (skipNewline s) := rfl

private theorem text?_writeBasic (s : List Char) {rest : List Char}
    (hrest : rest.head? ≠ some '"') :
    text? ('"' :: (writeChars false 0 s ++ '"' :: rest)) = some (String.ofList s, rest) := by
  have hnone : stripStart? ['"', '"', '"'] ('"' :: (writeChars false 0 s ++ '"' :: rest)) =
      none := by
    apply stripStart?_three_eq_none
    cases hchars : writeChars false 0 s with
    | nil => exact Or.inr ⟨rest, rfl, hrest⟩
    | cons c chars =>
      have hhead := head?_writeChars_ne s
      rw [hchars] at hhead
      exact Or.inl hhead
  rw [text?_basic hnone, basicFrom?_writeChars, List.reverse_nil, List.nil_append]

private theorem text?_writeLiteral {s : List Char} (hfits : fitsLiteral s = true) (hne : s ≠ [])
    (rest : List Char) : text? ('\'' :: (s ++ '\'' :: rest)) = some (String.ofList s, rest) := by
  have hnone : stripStart? ['\'', '\'', '\''] ('\'' :: (s ++ '\'' :: rest)) = none := by
    apply stripStart?_three_eq_none
    cases s with
    | nil => exact absurd rfl hne
    | cons c s =>
      simp only [fitsLiteral, Bool.and_eq_true, Bool.not_eq_true', List.contains_eq_mem,
        decide_eq_false_iff_not, List.mem_cons, not_or] at hfits
      exact Or.inl (by simpa using Ne.symm hfits.1.2.1)
  rw [text?_literal hnone, literal?_append hfits]

private theorem text?_writeMultilineBasic (s : List Char) {rest : List Char}
    (hrest : rest.head? ≠ some '"') :
    text? ('"' :: '"' :: '"' ::
        (openingBreak s ++ writeChars true 2 s ++ '"' :: '"' :: '"' :: rest)) =
      some (String.ofList s, rest) := by
  rw [text?_multilineBasic, skipNewline_openingBreak fun h => newline?_writeChars h _,
    multilineBasicFrom?_writeChars (Nat.le_refl 2) s [] hrest, List.reverse_nil, List.nil_append]

private theorem text?_writeMultilineLiteral {s : List Char} (hfits : fitsMultilineLiteral s = true)
    {rest : List Char} (hrest : rest.head? ≠ some '\'') :
    text? ('\'' :: '\'' :: '\'' :: (openingBreak s ++ s ++ '\'' :: '\'' :: '\'' :: rest)) =
      some (String.ofList s, rest) := by
  simp only [fitsMultilineLiteral, Bool.and_eq_true, Bool.not_eq_true', List.any_eq_false,
    decide_eq_true_eq] at hfits
  have hescape : ∀ c ∈ s, needsEscape c = false := fun c hc => by simpa using hfits.1 c hc
  have hrun : ¬ ['\'', '\'', '\''] <:+: s := by
    intro hinfix
    have := three_le_longestRun hinfix
    omega
  have hfirst : '\n' ∉ s → newline? (s ++ '\'' :: '\'' :: '\'' :: rest) = none := by
    intro hnewline
    cases s with
    | nil => rfl
    | cons c s =>
      apply newline?_cons_eq_none
      · rintro rfl
        exact hnewline List.mem_cons_self
      · rintro rfl
        exact absurd (hescape _ List.mem_cons_self) (by decide)
  rw [text?_multilineLiteral, skipNewline_openingBreak hfirst,
    multilineLiteralFrom?_append hescape hrun [] hrest, List.reverse_nil, List.nil_append]

/-- A written text is read back, whatever follows but a quote. -/
theorem text?_writeText (content : String) {rest : List Char} (hdouble : rest.head? ≠ some '"')
    (hsingle : rest.head? ≠ some '\'') :
    text? (writeText content ++ rest) = some (content, rest) := by
  have hcontent : String.ofList content.toList = content := String.ofList_toList
  have hbasic : text? ('"' :: (writeChars false 0 content.toList ++ ['"']) ++ rest) =
      some (content, rest) := by
    rw [List.cons_append, List.append_assoc, List.singleton_append,
      text?_writeBasic content.toList hdouble, hcontent]
  rw [writeText]
  split
  · exact hbasic
  rename_i hnotBasic
  split
  · rename_i hfits
    have hne : content.toList ≠ [] := by
      intro hnil
      rw [hnil] at hnotBasic
      exact hnotBasic rfl
    rw [List.cons_append, List.append_assoc, List.singleton_append, text?_writeLiteral hfits hne,
      hcontent]
  split
  · have hread := text?_writeMultilineBasic content.toList hdouble
    rw [hcontent] at hread
    simpa using hread
  rename_i hnotMultiline
  split
  · rename_i hfits
    have hread := text?_writeMultilineLiteral hfits hsingle
    rw [hcontent] at hread
    simpa using hread
  · exact hbasic

end RepoGraph.Toml
