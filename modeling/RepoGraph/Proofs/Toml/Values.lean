import RepoGraph.Proofs.Toml.Texts
import RepoGraph.Toml.Reader

/-!
# The values of written TOML

Numbers, texts and lists of texts are read back from what is written for them. A number is read to
its end only if something follows that does not go on with it.
-/

namespace RepoGraph.Toml

open Text

section Digits

variable {word : List Char} (hword : ∀ c ∈ word, c.isDigit = true)
include hword

private theorem notMem_of_digits {c : Char} (hc : c.isDigit = false) : c ∉ word := by
  intro hmem
  rw [hword c hmem] at hc
  cases hc

private theorem sign_of_digits : sign word = (false, word) := by
  unfold sign
  split
  · exact absurd List.mem_cons_self (notMem_of_digits hword (c := '+') (by decide))
  · exact absurd List.mem_cons_self (notMem_of_digits hword (c := '-') (by decide))
  · rfl

private theorem stripStart?_drop_of_digits {c : Char} (hc : c.isDigit = false) (n : Nat) :
    stripStart? [c] (word.drop n) = none := by
  rw [Option.eq_none_iff_forall_ne_some]
  intro rest hrest
  rw [stripStart?_eq_some_iff] at hrest
  apply notMem_of_digits hword hc
  apply List.mem_of_mem_drop (i := n)
  rw [hrest]
  exact List.mem_cons_self

private theorem afterDate?_of_digits : afterDate? word = none := by
  rw [afterDate?, field?]
  split
  · simp [stripStart?_drop_of_digits hword (c := '-') (by decide)]
  · rfl

private theorem afterClock?_of_digits : afterClock? word = none := by
  rw [afterClock?, afterMinute?, field?]
  split
  · simp [stripStart?_drop_of_digits hword (c := ':') (by decide)]
  · rfl

private theorem isTime_of_digits : isTime word = false := by
  rw [isTime, isDate, afterDate?_of_digits hword, afterClock?_of_digits hword]
  rfl

private theorem isDecimal_of_digits : isDecimal word = false := by
  have hexponent : atExponent word = (word, none) := by
    have hnone : word.dropWhile (!isExponentLetter ·) = [] := by
      rw [List.dropWhile_eq_nil_iff]
      intro c hc
      have he : c ≠ 'e' := by
        rintro rfl
        exact notMem_of_digits hword (by decide) hc
      have hE : c ≠ 'E' := by
        rintro rfl
        exact notMem_of_digits hword (by decide) hc
      simp [isExponentLetter, he, hE]
    rw [atExponent, hnone]
  have hpoint : atPoint word = (word, none) := by
    have hnone : word.dropWhile (· != '.') = [] := by
      rw [List.dropWhile_eq_nil_iff]
      intro c hc
      rw [bne_iff_ne]
      rintro rfl
      exact notMem_of_digits hword (by decide) hc
    rw [atPoint, hnone]
  rw [isDecimal, sign_of_digits hword]
  dsimp only
  rw [hexponent]
  dsimp only
  rw [hpoint]
  cases wholeDigits? word with
  | none => rfl
  | some digits => rfl

private theorem isSpecial_of_digits : isSpecial word = false := by
  have hne : ∀ c, c.isDigit = false → ∀ s, word ≠ c :: s := by
    rintro c hc s rfl
    exact notMem_of_digits hword hc List.mem_cons_self
  rw [isSpecial, sign_of_digits hword]
  simp only [Bool.or_eq_false_iff, beq_eq_false_iff_ne]
  exact ⟨hne 'i' (by decide) _, hne 'n' (by decide) _⟩

end Digits

theorem isDigit_of_mem_toDigits {n : Nat} : ∀ c ∈ Nat.toDigits 10 n, c.isDigit = true :=
  fun _ hc => Nat.isDigit_of_mem_toDigits (by decide) (by decide) hc

private theorem wholeNumber?_toDigits (n : Nat) :
    wholeNumber? (Nat.toDigits 10 n) = some (n : Int) := by
  have hdigits := isDigit_of_mem_toDigits (n := n)
  have hgroups : ungroup? Char.isDigit (Nat.toDigits 10 n) = some (Nat.toDigits 10 n) := by
    rw [ungroup?, splitOn_of_notMem (notMem_of_digits hdigits (by decide))]
    have hall : (Nat.toDigits 10 n).all Char.isDigit = true := List.all_eq_true.mpr hdigits
    have hempty : (Nat.toDigits 10 n).isEmpty = false := by
      simp [List.isEmpty_eq_false_iff, Nat.toDigits_ne_nil]
    simp [hall, hempty]
  have hwhole : wholeDigits? (Nat.toDigits 10 n) = some (Nat.toDigits 10 n) := by
    rw [wholeDigits?, hgroups, Option.filter_some, if_pos]
    by_cases hn : n = 0
    · subst hn
      rfl
    · simpa using Or.inr (head?_toDigits_ne_zero hn)
  unfold wholeNumber?
  split
  · rename_i heq
    rw [heq] at hdigits
    exact absurd (hdigits 'x' (by simp)) (by decide)
  · rename_i heq
    rw [heq] at hdigits
    exact absurd (hdigits 'o' (by simp)) (by decide)
  · rename_i heq
    rw [heq] at hdigits
    exact absurd (hdigits 'b' (by simp)) (by decide)
  · rw [sign_of_digits hdigits, hwhole]
    simp [Nat.ofDigitChars_ten_toDigits]

private theorem scalar?_toDigits {n : Nat} (hn : n ≤ 0x7fffffffffffffff) :
    scalar? (Nat.toDigits 10 n) = some (.integer n) := by
  have hdigits := isDigit_of_mem_toDigits (n := n)
  have htrue : Nat.toDigits 10 n ≠ "true".toList := by
    intro heq
    exact notMem_of_digits hdigits (c := 't') (by decide) (heq ▸ List.mem_cons_self)
  have hfalse : Nat.toDigits 10 n ≠ "false".toList := by
    intro heq
    exact notMem_of_digits hdigits (c := 'f') (by decide) (heq ▸ List.mem_cons_self)
  have hinteger : isInteger64 (n : Int) = true := by
    simp only [isInteger64, Bool.and_eq_true, decide_eq_true_eq]
    omega
  rw [scalar?, if_neg htrue, if_neg hfalse, isTime_of_digits hdigits, isDecimal_of_digits hdigits,
    isSpecial_of_digits hdigits, wholeNumber?_toDigits]
  simp [hinteger]

private theorem scalarAt?_toDigits {n : Nat} (hn : n ≤ 0x7fffffffffffffff) (rest : List Char) :
    scalarAt? (Nat.toDigits 10 n ++ '\n' :: rest) = some (.integer n, '\n' :: rest) := by
  have hchars : ∀ c ∈ Nat.toDigits 10 n, isScalarChar c = true := by
    intro c hc
    simp [isScalarChar, Char.isAlphanum, isDigit_of_mem_toDigits c hc]
  have htake : (Nat.toDigits 10 n ++ '\n' :: rest).takeWhile isScalarChar = Nat.toDigits 10 n := by
    rw [List.takeWhile_append_of_pos hchars]
    simp [isScalarChar]
  have hdrop : (Nat.toDigits 10 n ++ '\n' :: rest).dropWhile isScalarChar = '\n' :: rest := by
    rw [List.dropWhile_append_of_pos hchars]
    simp [isScalarChar]
  have hword : scalarWord (Nat.toDigits 10 n ++ '\n' :: rest) =
      (Nat.toDigits 10 n, '\n' :: rest) := by
    rw [scalarWord, htake, hdrop]
    rfl
  rw [scalarAt?, htake, hword, scalar?_toDigits hn]
  simp [Nat.toDigits_ne_nil]

private theorem skipFiller_newline (s : List Char) : skipFiller ('\n' :: s) = skipFiller s := by
  rw [skipFiller]
  rfl

private theorem skipFiller_gap (s : List Char) : skipFiller (' ' :: s) = skipFiller s := by
  rw [skipFiller, skipFiller]
  rfl

private theorem skipFiller_of_start {c : Char} (hgap : isGap c = false) (hcomment : c ≠ '#')
    (hnewline : c ≠ '\n') (hreturn : c ≠ '\r') (s : List Char) : skipFiller (c :: s) = c :: s := by
  have hskip : skipGap (c :: s) = c :: s := by simp [skipGap, hgap]
  rw [skipFiller]
  split
  · rename_i heq
    rw [hskip] at heq
    exact absurd (List.cons.inj heq).1 hcomment
  · rename_i heq
    split
    · rename_i hn
      rw [hskip, newline?_cons_eq_none hnewline hreturn] at hn
      cases hn
    · exact hskip

private theorem run?_of_next? {reading after : TomlReading} {s rest : List Char}
    (h : TomlReading.next? reading s = some (after, rest)) :
    TomlReading.run? reading s = TomlReading.run? after rest := by
  cases reading with
  | finished v => cases h
  | _ =>
    rw [TomlReading.run?]
    · split
      · rename_i hnext
        rw [h] at hnext
        cases hnext
        rfl
      · rename_i hnext
        rw [h] at hnext
        cases hnext
    · intro v hv
      cases hv

private theorem writeText_head (content : String) :
    ∃ more, writeText content = '"' :: more ∨ writeText content = '\'' :: more := by
  rw [writeText]
  repeat' split
  · exact ⟨_, Or.inl rfl⟩
  · exact ⟨_, Or.inr rfl⟩
  · exact ⟨_, Or.inl rfl⟩
  · exact ⟨_, Or.inr rfl⟩
  · exact ⟨_, Or.inl rfl⟩

private theorem start?_writeText (content : String) (place : TomlPlace) {rest : List Char}
    (hdouble : rest.head? ≠ some '"') (hsingle : rest.head? ≠ some '\'') :
    TomlReading.start? place (writeText content ++ rest) =
      some (place.fill (.text content), rest) := by
  have htext := text?_writeText content hdouble hsingle
  obtain ⟨more, heq | heq⟩ := writeText_head content
  · rw [heq, List.cons_append] at htext ⊢
    simp [TomlReading.start?, htext]
  · rw [heq, List.cons_append] at htext ⊢
    simp [TomlReading.start?, htext]

private theorem skipGap_writeText (content : String) (s : List Char) :
    skipGap (writeText content ++ s) = writeText content ++ s := by
  obtain ⟨more, heq | heq⟩ := writeText_head content
  · rw [heq]
    rfl
  · rw [heq]
    rfl

private theorem skipFiller_writeText (content : String) (s : List Char) :
    skipFiller (writeText content ++ s) = writeText content ++ s := by
  obtain ⟨more, heq | heq⟩ := writeText_head content
  · rw [heq]
    exact skipFiller_of_start (by decide) (by decide) (by decide) (by decide) _
  · rw [heq]
    exact skipFiller_of_start (by decide) (by decide) (by decide) (by decide) _

private theorem next?_item (content : String) (done : List TomlValue) (outer : TomlPlace)
    {s rest : List Char} (hs : skipFiller s = writeText content ++ rest)
    (hdouble : rest.head? ≠ some '"') (hsingle : rest.head? ≠ some '\'') :
    TomlReading.next? (.item done outer) s =
      some (.afterItem (.text content :: done) outer, rest) := by
  have hstart := start?_writeText content (.item done outer) hdouble hsingle
  obtain ⟨more, heq | heq⟩ := writeText_head content
  · rw [heq] at hs hstart
    rw [TomlReading.next?, hs]
    exact hstart
  · rw [heq] at hs hstart
    rw [TomlReading.next?, hs]
    exact hstart

private theorem run?_items (contents : List String) (done : List TomlValue) {s rest : List Char}
    (hs : skipFiller s = skipFiller (contents.flatMap
      (fun content => "    ".toList ++ writeText content ++ [',', '\n']) ++ ']' :: rest)) :
    TomlReading.run? (.item done .top) s =
      some (.array (done.reverse ++ contents.map .text), rest) := by
  induction contents generalizing done s with
  | nil =>
    have hclose : skipFiller s = ']' :: rest := by
      rw [hs, List.flatMap_nil, List.nil_append,
        skipFiller_of_start (by decide) (by decide) (by decide) (by decide)]
    have hnext : TomlReading.next? (.item done .top) s =
        some (.finished (.array done.reverse), rest) := by
      rw [TomlReading.next?, hclose]
      rfl
    rw [run?_of_next? hnext, TomlReading.run?, List.map_nil, List.append_nil]
  | cons content contents ih =>
    have hitem : skipFiller s = writeText content ++ ',' :: '\n' :: (contents.flatMap
        (fun content => "    ".toList ++ writeText content ++ [',', '\n']) ++ ']' :: rest) := by
      have hlist : (content :: contents).flatMap
          (fun content => "    ".toList ++ writeText content ++ [',', '\n']) ++ ']' :: rest =
          ' ' :: ' ' :: ' ' :: ' ' :: (writeText content ++ ',' :: '\n' :: (contents.flatMap
            (fun content => "    ".toList ++ writeText content ++ [',', '\n']) ++
              ']' :: rest)) := by
        simp
      rw [hs, hlist, skipFiller_gap, skipFiller_gap, skipFiller_gap, skipFiller_gap,
        skipFiller_writeText]
    have hcomma (t : List Char) : TomlReading.next? (.afterItem (.text content :: done) .top)
        (',' :: t) = some (.item (.text content :: done) .top, t) := by
      rw [TomlReading.next?, skipFiller_of_start (by decide) (by decide) (by decide) (by decide)]
      rfl
    rw [run?_of_next? (next?_item content done .top hitem (by simp) (by simp)),
      run?_of_next? (hcomma _), ih _ (skipFiller_newline _)]
    simp

theorem value?_writeTexts (contents : List String) (rest : List Char) :
    value? (' ' :: (writeTexts contents ++ '\n' :: rest)) =
      some (.array (contents.map .text), '\n' :: rest) := by
  have hopen (s : List Char) : TomlReading.next? (.value .top) (' ' :: '[' :: s) =
      some (.item [] .top, s) := rfl
  rw [value?]
  match contents with
  | [] => exact (run?_of_next? (hopen _)).trans (run?_items [] [] rfl)
  | [content] =>
    have hitem : skipFiller (writeText content ++ [']'] ++ '\n' :: rest) =
        writeText content ++ ']' :: '\n' :: rest := by
      rw [List.append_assoc, List.singleton_append, skipFiller_writeText]
    have hclose : TomlReading.next? (.afterItem [.text content] .top) (']' :: '\n' :: rest) =
        some (.finished (.array [.text content]), '\n' :: rest) := by
      rw [TomlReading.next?, skipFiller_of_start (by decide) (by decide) (by decide) (by decide)]
      rfl
    rw [writeTexts, List.cons_append, run?_of_next? (hopen _),
      run?_of_next? (next?_item content [] .top hitem (by simp) (by simp)), run?_of_next? hclose,
      TomlReading.run?]
    rfl
  | first :: second :: more =>
    have hlist : writeTexts (first :: second :: more) ++ '\n' :: rest =
        '[' :: '\n' :: ((first :: second :: more).flatMap
          (fun content => "    ".toList ++ writeText content ++ [',', '\n']) ++
            ']' :: '\n' :: rest) := by
      simp [writeTexts]
    rw [hlist, run?_of_next? (hopen _),
      run?_items (first :: second :: more) [] (skipFiller_newline _)]
    rfl

theorem value?_writeText (content : String) (rest : List Char) :
    value? (' ' :: (writeText content ++ '\n' :: rest)) = some (.text content, '\n' :: rest) := by
  have hnext : TomlReading.next? (.value .top) (' ' :: (writeText content ++ '\n' :: rest)) =
      some (.finished (.text content), '\n' :: rest) := by
    change TomlReading.start? .top (skipGap (writeText content ++ '\n' :: rest)) = _
    rw [skipGap_writeText]
    exact start?_writeText content .top (by simp) (by simp)
  rw [value?, run?_of_next? hnext, TomlReading.run?]

theorem value?_toDigits {n : Nat} (hn : n ≤ 0x7fffffffffffffff) (rest : List Char) :
    value? (' ' :: (Nat.toDigits 10 n ++ '\n' :: rest)) = some (.integer n, '\n' :: rest) := by
  have hnext : TomlReading.next? (.value .top) (' ' :: (Nat.toDigits 10 n ++ '\n' :: rest)) =
      some (.finished (.integer n), '\n' :: rest) := by
    have hscalar := scalarAt?_toDigits hn rest
    change TomlReading.start? .top (skipGap (Nat.toDigits 10 n ++ '\n' :: rest)) = _
    cases hdigits : Nat.toDigits 10 n with
    | nil => exact absurd hdigits Nat.toDigits_ne_nil
    | cons d digits =>
      have hd : d.isDigit = true := isDigit_of_mem_toDigits (n := n) d (by simp [hdigits])
      have hne : ∀ c : Char, c.isDigit = false → d ≠ c := by
        rintro c hc rfl
        rw [hd] at hc
        cases hc
      have hgap : isGap d = false := by
        simp [isGap, hne ' ' (by decide), hne '\t' (by decide)]
      have hskip : skipGap (d :: digits ++ '\n' :: rest) = d :: digits ++ '\n' :: rest := by
        simp [skipGap, hgap]
      rw [hdigits] at hscalar
      rw [hskip, List.cons_append]
      rw [List.cons_append] at hscalar
      unfold TomlReading.start?
      split
      · rename_i heq
        exact absurd (List.cons.inj heq).1 (hne '[' (by decide))
      · rename_i heq
        exact absurd (List.cons.inj heq).1 (hne '\x7b' (by decide))
      · rename_i heq
        exact absurd (List.cons.inj heq).1 (hne '"' (by decide))
      · rename_i heq
        exact absurd (List.cons.inj heq).1 (hne '\'' (by decide))
      · rw [hscalar]
        rfl
  rw [value?, run?_of_next? hnext, TomlReading.run?]

end RepoGraph.Toml
